import TinyScript.Proofs.Acceptance
import TinyScript.Proofs.Cursor
import TinyScript.Proofs.Lookahead
import TinyScript.Proofs.Scanned

/-! Ways of feeding a parse. A stream with errors among its tokens is parsed as its tokens alone, and a
text is parsed to the same program from all its items at once, from its tokens, and from characters
that come one at a time. -/
namespace TinyScript

/-- The items up to and including the first end token, or all of them if there is none. -/
def Item.upToEnd : List Item → List Item
  | [] => []
  | item :: items => if Scanner.isEnd item then [item] else item :: upToEnd items

/-- The tokens of a stream that count. -/
def Item.tokensUpToEnd (items : List Item) : List Token := (upToEnd items).filterMap token?

/-- The errors of a stream that count. -/
def Item.errorsUpToEnd (items : List Item) : List LexicalError := (upToEnd items).filterMap error?

namespace Feed

theorem ofItems_upToEnd (items : List Item) :
    Item.tokensUpToEnd items = (ofItems items).tokens ++ (ofItems items).final?.toList ∧
      Item.errorsUpToEnd items = (ofItems items).errors := by
  induction items with
  | nil => simp [Item.tokensUpToEnd, Item.errorsUpToEnd, Item.upToEnd, ofItems]
  | cons item items ih =>
    obtain ⟨tokens, errors⟩ := ih
    cases item with
    | error error =>
      exact ⟨tokens, congrArg (error :: ·) errors⟩
    | ok token =>
      by_cases isEnd : token.kind = .endOfInput
      · simp [Item.tokensUpToEnd, Item.errorsUpToEnd, Item.upToEnd, ofItems, Scanner.isEnd, isEnd,
          Item.token?, Item.error?]
      · have goesOn : Scanner.isEnd (.ok token) = false := beq_eq_false_iff_ne.2 isEnd
        rw [Item.tokensUpToEnd, Item.errorsUpToEnd, Item.upToEnd, goesOn, ofItems, if_neg isEnd]
        exact ⟨congrArg (token :: ·) tokens, errors⟩

/-- The tokens that count feed the same as the whole stream does, but for the errors. -/
theorem ofItems_tokensUpToEnd (items : List Item) :
    ofItems ((Item.tokensUpToEnd items).map .ok) =
      ⟨(ofItems items).tokens, (ofItems items).final?, [], []⟩ := by
  obtain ⟨noEnd, isEnd⟩ := ends items
  rw [(ofItems_upToEnd items).1, List.map_append, ofItems_append noEnd]
  cases found : (ofItems items).final? with
  | none => simp [ofItems]
  | some final => simp [ofItems, isEnd final found]

end Feed

theorem parseItems_eq_parseTokens (items : List Item) :
    parseItems items =
      { parseTokens (Item.tokensUpToEnd items) with lexicalErrors := Item.errorsUpToEnd items } := by
  rw [parseTokens, parseItems, parseItems, Feed.ofItems_tokensUpToEnd, (Feed.ofItems_upToEnd items).2]
  rfl

namespace Window

/-- What a window shows: the token passed last and the two in front. -/
def shown (window : Window) : Option Token × Token × Token :=
  (window.previous, window.current, window.next)

theorem shown_eq_of_at {feed other : Feed} {passed : Nat} {window view : Window}
    (stands : At feed passed window) (beside : At other passed view)
    (tokens : feed.tokens = other.tokens) (final : feed.final = other.final) :
    window.shown = view.shown := by
  simp only [shown, stands.previous, stands.current, stands.next, beside.previous, beside.current,
    beside.next, tokens, final]

/-- Errors in a stream shift nothing: wherever it stands, a window on the stream shows what one on its
tokens alone shows. -/
theorem shown_view (items : List Item) (count : Nat) :
    (view items count).shown = (view ((Item.tokensUpToEnd items).map .ok) count).shown := by
  have beside := view_at ((Item.tokensUpToEnd items).map .ok) count
  rw [Feed.ofItems_tokensUpToEnd] at beside
  exact shown_eq_of_at (view_at items count) beside rfl rfl

end Window

/-- The only end token of a scan is its last item. -/
theorem Item.upToEnd_scan (source : String) : upToEnd (scan source) = scan source := by
  obtain ⟨items, final, same, isEnd, scanned⟩ := (Scanner.ofText source).run_scanned
  rw [scan, same]
  clear same
  induction items with
  | nil => simp [upToEnd]
  | cons item items ih =>
    have goesOn : Scanner.isEnd item = false := by
      cases item with
      | error error => rfl
      | ok token => exact beq_eq_false_iff_ne.2 (scanned token List.mem_cons_self).ne_end
    have later := ih fun token member => scanned token (List.mem_cons_of_mem item member)
    rw [List.cons_append, upToEnd, if_neg (by simp [goesOn]), later]

/-- All ways of feeding a parse agree. A stream is parsed as the tokens that count in it, and its errors
are those that count. Pulled two tokens ahead, it shows at every place what parsing reads there, the
same as its tokens alone, and at the end it has set the errors that count aside. A text below four
gigabytes is parsed to the same program from its items, from its characters with offsets looked up or
counted on the way, and from its tokens; its errors are those that scanning finds. -/
theorem feeding_agrees :
    (∀ items : List Item,
      parseItems items =
        { parseTokens (Item.tokensUpToEnd items) with
          lexicalErrors := Item.errorsUpToEnd items }) ∧
    (∀ (items : List Item) (count : Nat),
      let feed := Feed.ofItems items
      let window := Window.view items count
      window.At feed (min count feed.tokens.length) ∧
        window.shown = (Window.view ((Item.tokensUpToEnd items).map .ok) count).shown ∧
        (window.current.kind = .endOfInput →
          window.source.errors = Item.errorsUpToEnd items)) ∧
    ∀ source : String, source.utf8ByteSize < 2 ^ 32 →
      parseItems (Reader.ofInput (Cursor.indexed 0 source.toList)).items = parse source ∧
      parseItems (Reader.ofInput (Cursor.counted 0 source.toList)).items = parse source ∧
      (parseTokens (scanTokens source)).statements = (parse source).statements ∧
      (parseTokens (scanTokens source)).errors = (parse source).errors ∧
      (parse source).lexicalErrors = scanErrors source := by
  refine ⟨parseItems_eq_parseTokens, ?_, ?_⟩
  · intro items count
    refine ⟨Window.view_at items count, Window.shown_view items count, ?_⟩
    intro isEnd
    rw [Window.errors_of_view_end isEnd, (Feed.ofItems_upToEnd items).2]
  · intro source small
    obtain ⟨lookedUp, onTheWay⟩ := Reader.items_eq_scan small
    have parsed := parseItems_eq_parseTokens (scan source)
    rw [Item.tokensUpToEnd, Item.errorsUpToEnd, Item.upToEnd_scan] at parsed
    refine ⟨congrArg parseItems lookedUp, congrArg parseItems onTheWay, ?_⟩
    rw [parse, parsed]
    exact ⟨rfl, rfl, rfl⟩

private def misspelled : String := "var é# = 1; // né\n\"open"

/-- Malformed text in front of and behind characters of two bytes, at offsets counted on the way. -/
theorem misspelled_fed_alike :
    misspelled.utf8ByteSize < 2 ^ 32 ∧
      parseItems (Reader.ofInput (Cursor.counted 0 misspelled.toList)).items = parse misspelled ∧
      (parse misspelled).lexicalErrors.map LexicalError.span = [⟨4, 6⟩, ⟨6, 7⟩, ⟨20, 25⟩] := by
  have small : misspelled.utf8ByteSize < 2 ^ 32 := by decide +kernel
  obtain ⟨-, onTheWay, -, -, errors⟩ := feeding_agrees.2.2 misspelled small
  refine ⟨small, onTheWay, ?_⟩
  rw [errors]
  cbv

end TinyScript

import TinyScript.Proofs.Cursor
import TinyScript.Proofs.Scanned

/-! The items of a scan tile the source. Each stands on the text its span covers, the spans follow one
another, and between them there is nothing but spacing and comments. Lines are counted in 32 bits, which
is enough for every source below four gigabytes but one. -/
namespace TinyScript

namespace Item

def span : Item → Span
  | .ok token => token.span
  | .error error => error.span

def lexeme : Item → String
  | .ok token => token.lexeme
  | .error error => error.lexeme

def line : Item → UInt32
  | .ok token => token.line
  | .error error => error.line

/-- Anything but an end token and a token that stands for malformed text. -/
def Regular : Item → Prop
  | .ok token => token.kind ≠ .endOfInput ∧ token.kind ≠ .illegal
  | .error _ => True

/-- The item's span goes from one character of the source to another, the text between them is its
lexeme, and its line counts the newlines up to there, in 32 bits. -/
def PlacedIn (source : String) (item : Item) : Prop :=
  ∃ before after : String, source = before ++ item.lexeme ++ after ∧
    item.span = ⟨before.utf8ByteSize, (before ++ item.lexeme).utf8ByteSize⟩ ∧
    item.line = UInt32.ofNat (1 + (before ++ item.lexeme).toList.count '\n')

/-- The item's line is one more than the number of newlines in the source up to the item's end. -/
def CountsLines (source : String) (item : Item) : Prop :=
  ∀ before after : String, source = before ++ after → before.utf8ByteSize = item.span.stop →
    item.line.toNat = 1 + before.toList.count '\n'

end Item

/-- Text of spacing and comments in front of `after`. A comment runs up to a newline or the end, and
the newline does not belong to it. -/
inductive Skipped : (text after : List Char) → Prop where
  | nil (after : List Char) : Skipped [] after
  | spacing {c : Char} {rest after : List Char} (blank : c ∈ [' ', '\t', '\r', '\n'])
      (skipped : Skipped rest after) : Skipped (c :: rest) after
  | comment {body rest after : List Char} (inside : '\n' ∉ body)
      (stops : rest ++ after = [] ∨ (rest ++ after).head? = some '\n')
      (skipped : Skipped rest after) : Skipped ('/' :: '/' :: body ++ rest) after

/-- Between the two offsets the source has nothing but spacing and comments. -/
def Gap (source : String) (start stop : Nat) : Prop :=
  ∃ before between after : String, source = before ++ between ++ after ∧
    start = before.utf8ByteSize ∧ stop = (before ++ between).utf8ByteSize ∧
    Skipped between.toList after.toList

/-- The items cut the source, from the offset on, into lexemes and gaps. -/
structure Tiles (source : String) (start : Nat) (items : List Item) : Prop where
  ends : ∃ (front : List Item) (final : Token), items = front ++ [.ok final] ∧
    final.kind = .endOfInput ∧ final.lexeme = "" ∧
    final.span = ⟨source.utf8ByteSize, source.utf8ByteSize⟩ ∧
    ∀ item ∈ front, item.Regular ∧ item.span.start < item.span.stop
  placed : ∀ item ∈ items, item.PlacedIn source
  ordered : items.Pairwise fun earlier later => earlier.span.stop ≤ later.span.start
  apart : (⟨start, start⟩ :: items.map Item.span).IsChain fun earlier later =>
    Gap source earlier.stop later.start

namespace Scanner

theorem isSpacing_iff {c : Char} : isSpacing c = true ↔ c ∈ [' ', '\t', '\r', '\n'] := by
  simp only [isSpacing, Bool.or_eq_true, beq_iff_eq, List.mem_cons, List.not_mem_nil, or_false]
  constructor
  · rintro (((blank | ret) | tab) | newline) <;> simp [*]
  · rintro (blank | tab | ret | newline) <;> simp [*]

mutual
theorem trivia_skipped : (text behind : List Char) → text = trivia text ++ behind →
    Skipped (trivia text) behind
  | [], _, _ => .nil _
  | c :: rest, behind, shape => by
    by_cases spacing : isSpacing c = true
    · rw [trivia_spacing spacing] at shape ⊢
      have inner : rest = trivia rest ++ behind := by simpa using shape
      exact .spacing (isSpacing_iff.1 spacing) (trivia_skipped rest behind inner)
    · unfold trivia
      split
      · exact .nil _
      · next more same =>
        obtain ⟨rfl, rfl⟩ := List.cons.inj same
        have inner : more = comment more ++ behind := by simpa [trivia] using shape
        obtain ⟨body, others, split, inside, stops, skipped⟩ := comment_skipped more behind inner
        rw [split]
        exact .comment inside stops skipped
      · next same =>
        cases same
        simp only [spacing]
        exact .nil _

theorem comment_skipped : (text behind : List Char) → text = comment text ++ behind →
    ∃ body rest, comment text = body ++ rest ∧ '\n' ∉ body ∧
      (rest ++ behind = [] ∨ (rest ++ behind).head? = some '\n') ∧ Skipped rest behind
  | [], behind, shape => by
    have empty : behind = [] := by simpa [comment] using shape.symm
    exact ⟨[], [], by simp [comment], by simp, by simp [empty], .nil _⟩
  | c :: rest, behind, shape => by
    unfold comment at shape ⊢
    split
    · next newline =>
      subst newline
      have inner : rest = trivia rest ++ behind := by simpa using shape
      exact ⟨[], '\n' :: trivia rest, rfl, by simp, .inr rfl,
        .spacing (by simp) (trivia_skipped rest behind inner)⟩
    · next inside =>
      have inner : rest = comment rest ++ behind := by simpa [inside] using shape
      obtain ⟨body, others, split, clean, stops, skipped⟩ := comment_skipped rest behind inner
      refine ⟨c :: body, others, by rw [split]; rfl, ?_, stops, skipped⟩
      simp [clean, Ne.symm inside]
end

@[simp]
theorem span_item (scanner : Scanner) (start : Nat) (lexeme : Lexeme) :
    (scanner.item start lexeme).span = ⟨start, scanner.offset⟩ := by
  unfold item
  dsimp only
  split <;> rfl

@[simp]
theorem lexeme_item (scanner : Scanner) (start : Nat) (lexeme : Lexeme) :
    (scanner.item start lexeme).lexeme = String.ofList lexeme.text := by
  unfold item
  dsimp only
  split <;> rfl

@[simp]
theorem line_item (scanner : Scanner) (start : Nat) (lexeme : Lexeme) :
    (scanner.item start lexeme).line = scanner.line := by
  unfold item
  dsimp only
  split <;> rfl

theorem regular_item (scanner : Scanner) (start : Nat) (first : Char) (after : List Char) :
    (scanner.item start (Lexeme.ofText first after)).Regular := by
  unfold item
  dsimp only
  split
  · next kind literal meant =>
    have scanned := Lexeme.sound_ofText first after kind literal meant scanner.line
      ⟨start, scanner.offset⟩
    refine ⟨scanned.ne_end, ?_⟩
    rintro rfl
    exact scanned
  · trivial

end Scanner

/-- The scanner has passed the first part of the source and knows how long it is. -/
structure Scanner.StandsBehind (scanner : Scanner) (source : String) (passed : List Char) :
    Prop where
  shape : source = String.ofList passed ++ String.ofList scanner.rest
  offset : scanner.offset = utf8Size passed
  line : scanner.line = UInt32.ofNat (1 + passed.count '\n')

namespace Scanner.StandsBehind

variable {scanner : Scanner} {source : String} {passed : List Char}

theorem ofText (source : String) : (Scanner.ofText source).StandsBehind source [] where
  shape := by simp [Scanner.ofText]
  offset := rfl
  line := rfl

theorem pass (stands : scanner.StandsBehind source passed) {text behind : List Char}
    (front : scanner.rest = text ++ behind) :
    (scanner.pass text).StandsBehind source (passed ++ text) where
  shape := by
    rw [pass_rest_of_append front, stands.shape, front, String.ofList_append,
      String.ofList_append, String.append_assoc]
  offset := by simp [Scanner.pass, stands.offset, utf8Size_append]
  line := by simp [Scanner.pass, stands.line, UInt32.ofNat_add, UInt32.add_assoc]

/-- A scanner at the end has the whole source behind it. -/
theorem source_eq (stands : scanner.StandsBehind source passed) (atEnd : scanner.rest = []) :
    source = String.ofList passed := by
  simp [stands.shape, atEnd]

theorem gap (stands : scanner.StandsBehind source passed) {behind : List Char}
    (found : scanner.rest = trivia scanner.rest ++ behind) :
    Gap source scanner.offset (scanner.pass (trivia scanner.rest)).offset := by
  have skipped := trivia_skipped scanner.rest behind found
  refine ⟨String.ofList passed, String.ofList (trivia scanner.rest), String.ofList behind, ?_, ?_,
    ?_, by simpa using skipped⟩
  · rw [stands.shape, String.append_assoc]
    congr 1
    rw [← String.ofList_append, ← found]
  · rw [stands.offset, utf8ByteSize_ofList]
  · rw [← String.ofList_append, utf8ByteSize_ofList]
    exact (stands.pass found).offset

theorem placed (stands : scanner.StandsBehind source passed) {lexeme : Lexeme} {behind : List Char}
    (found : scanner.rest = lexeme.text ++ behind) :
    ((scanner.pass lexeme.text).item scanner.offset lexeme).PlacedIn source := by
  have later := stands.pass found
  refine ⟨String.ofList passed, String.ofList behind, ?_, ?_, ?_⟩
  · rw [lexeme_item, stands.shape, found, String.ofList_append, String.append_assoc]
  · rw [span_item, lexeme_item, ← String.ofList_append, utf8ByteSize_ofList, utf8ByteSize_ofList,
      stands.offset, later.offset]
  · rw [line_item, lexeme_item, ← String.ofList_append, String.toList_ofList, later.line]

theorem placed_endToken (stands : scanner.StandsBehind source passed) (atEnd : scanner.rest = []) :
    Item.PlacedIn source (.ok scanner.endToken) := by
  have whole := stands.source_eq atEnd
  refine ⟨String.ofList passed, "", ?_, ?_, ?_⟩
  · simp [whole, Item.lexeme, endToken]
  · simp [Item.span, Item.lexeme, endToken, stands.offset, utf8ByteSize_ofList]
  · simp [Item.line, Item.lexeme, endToken, stands.line]

end Scanner.StandsBehind

theorem Gap.le {source : String} {start stop : Nat} (gap : Gap source start stop) :
    start ≤ stop := by
  obtain ⟨before, between, after, _, rfl, rfl, _⟩ := gap
  simp [String.utf8ByteSize_append]

theorem Item.PlacedIn.le {source : String} {item : Item} (placed : item.PlacedIn source) :
    item.span.start ≤ item.span.stop := by
  obtain ⟨before, after, _, span, _⟩ := placed
  simp [span, String.utf8ByteSize_append]

/-- No tile starts in front of the first offset. -/
theorem Tiles.start_le {source : String} {start : Nat} {items : List Item}
    (tiles : Tiles source start items) {item : Item} (member : item ∈ items) :
    start ≤ item.span.start := by
  obtain ⟨_, placed, ordered, apart⟩ := tiles
  cases items with
  | nil => simp at member
  | cons first others =>
    have opening : start ≤ first.span.start := (List.IsChain.rel apart).le
    rcases List.mem_cons.1 member with rfl | later
    · exact opening
    · have own := (placed first (by simp)).le
      have behind := (List.pairwise_cons.1 ordered).1 item later
      omega

/-- What a scanner gives from its place on tiles the rest of the source. -/
theorem Scanner.Yields.tiles {scanner : Scanner} {items : List Item} (yields : scanner.Yields items)
    {source : String} {passed : List Char} (stands : scanner.StandsBehind source passed) :
    Tiles source scanner.offset items := by
  induction yields generalizing passed with
  | @blank scanner skipped =>
    have front : scanner.rest = scanner.rest ++ [] := by simp
    have atEnd := pass_rest_of_append front
    have last := stands.pass front
    have size : source.utf8ByteSize = (scanner.pass scanner.rest).offset := by
      rw [last.source_eq atEnd, utf8ByteSize_ofList, last.offset]
    have gap : Gap source scanner.offset (scanner.pass scanner.rest).offset := by
      have before := stands.gap (front.trans (congrArg (· ++ []) skipped.symm))
      rwa [skipped] at before
    exact {
      ends := ⟨[], _, rfl, rfl, rfl, by simp [endToken, size], by simp⟩
      placed := by simpa using last.placed_endToken atEnd
      ordered := by simp
      apart := List.isChain_pair.2 gap }
  | @lexeme scanner gap after first items skipped found _ ih =>
    subst skipped
    obtain ⟨behind, front⟩ := Lexeme.ofText_text_isPrefix first after
    have ahead : (scanner.pass (trivia scanner.rest)).rest =
        (Lexeme.ofText first after).text ++ behind := (pass_rest_of_append found).trans front.symm
    have started := stands.pass found
    have later := ih (started.pass ahead)
    have longer : (scanner.pass (trivia scanner.rest)).offset <
        ((scanner.pass (trivia scanner.rest)).pass (Lexeme.ofText first after).text).offset := by
      obtain ⟨more, shape⟩ := Lexeme.ofText_text_cons first after
      have positive := first.utf8Size_pos
      conv => rhs; rw [pass]
      simp only [shape, utf8Size]
      omega
    obtain ⟨others, final, rfl, isEnd, empty, atEnd, regular⟩ := later.ends
    exact {
      ends := ⟨_ :: others, final, rfl, isEnd, empty, atEnd, by
        rintro item member
        rcases List.mem_cons.1 member with rfl | member
        · exact ⟨regular_item _ _ _ _, by simpa using longer⟩
        · exact regular item member⟩
      placed := List.forall_mem_cons.2 ⟨started.placed ahead, later.placed⟩
      ordered := List.pairwise_cons.2 ⟨fun item member => by simpa using later.start_le member,
        later.ordered⟩
      apart := by
        rw [List.map_cons, List.isChain_cons_cons, span_item]
        refine ⟨stands.gap found, List.IsChain.imp_head ?_ later.apart⟩
        intro next gap
        exact gap }

namespace Scanner

/-- The scanner after so many requests for the next item. -/
def afterRequests (scanner : Scanner) : Nat → Scanner
  | 0 => scanner
  | count + 1 => scanner.next?.2.afterRequests count

theorem afterRequests_finished {scanner : Scanner} (finished : scanner.finished = true)
    (count : Nat) : scanner.afterRequests count = scanner := by
  induction count with
  | zero => rfl
  | succ count ih => simp [afterRequests, next?, finished, ih]

theorem isEnd_of_regular {item : Item} (regular : item.Regular) : isEnd item = false := by
  cases item with
  | ok token => simpa [isEnd] using regular.1
  | error error => rfl

/-- Requests give the items of the source in order, and nothing more after the end token. -/
theorem Yields.requests {scanner : Scanner} {items : List Item} (yields : scanner.Yields items)
    (going : scanner.finished = false) (count : Nat) :
    (scanner.afterRequests count).next?.1 = items[count]? := by
  induction yields generalizing count with
  | @blank scanner skipped =>
    have item := step_of_blank skipped
    cases count with
    | zero => simp [afterRequests, next?, going, item]
    | succ count =>
      have finished : scanner.next?.2.finished = true := by
        simp [next?, going, item, isEnd, endToken]
      rw [afterRequests, afterRequests_finished finished, next?, finished]
      simp
  | @lexeme scanner gap after first items skipped found _ ih =>
    have stepped := step_of_lexeme skipped found
    cases count with
    | zero => simp [afterRequests, next?, going, stepped]
    | succ count =>
      have goesOn : scanner.next?.2 =
          (scanner.pass gap).pass (Lexeme.ofText first after).text := by
        simp [next?, going, stepped, isEnd_of_regular (regular_item _ _ first after), pass]
      rw [afterRequests, goesOn, List.getElem?_cons_succ]
      exact ih going count

end Scanner

theorem Item.placedIn_of_mem_scan {source : String} {item : Item} (member : item ∈ scan source) :
    item.PlacedIn source :=
  ((Scanner.ofText source).run_yields.tiles (.ofText source)).placed item member

theorem eq_of_isPrefix_of_utf8Size {front text : List Char} (isFront : front <+: text)
    (size : utf8Size front = utf8Size text) : front = text := by
  obtain ⟨rest, rfl⟩ := isFront
  rw [utf8Size_append] at size
  cases rest with
  | nil => simp
  | cons c others =>
    have positive := c.utf8Size_pos
    simp only [utf8Size] at size
    omega

/-- Two pieces at the head of a source that take the same bytes are the same. -/
theorem eq_of_utf8ByteSize {first second rest behind : String}
    (split : first ++ rest = second ++ behind)
    (size : first.utf8ByteSize = second.utf8ByteSize) : first = second := by
  rw [← String.toList_inj] at split ⊢
  rw [← String.ofList_toList (s := first), ← String.ofList_toList (s := second), utf8ByteSize_ofList,
    utf8ByteSize_ofList] at size
  rw [String.toList_append, String.toList_append] at split
  rcases List.append_eq_append_iff.1 split with ⟨more, longer, _⟩ | ⟨more, longer, _⟩
  · exact eq_of_isPrefix_of_utf8Size ⟨more, longer.symm⟩ size
  · exact (eq_of_isPrefix_of_utf8Size ⟨more, longer.symm⟩ size.symm).symm

theorem length_le_utf8Size (text : List Char) : text.length ≤ utf8Size text := by
  induction text with
  | nil => exact Nat.le_refl 0
  | cons c rest ih =>
    have positive := c.utf8Size_pos
    simp only [List.length_cons, utf8Size]
    omega

/-- Below four gigabytes, a text has few enough lines for 32 bits unless it is nothing but newlines and
as long as it can be. -/
theorem newlines_lt {text : List Char} (short : utf8Size text < 2 ^ 32)
    (other : text ≠ List.replicate (2 ^ 32 - 1) '\n') : 1 + text.count '\n' < 2 ^ 32 := by
  have counted : text.count '\n' ≤ text.length := List.count_le_length
  have size := length_le_utf8Size text
  by_contra many
  have all : text.count '\n' = text.length := by omega
  have length : text.length = 2 ^ 32 - 1 := by omega
  exact other (length ▸ List.eq_replicate_of_mem fun c member => (List.count_eq_length.1 all c member).symm)

theorem ne_replicate_of_length_lt {text : List Char} {count : Nat} {c : Char}
    (shorter : text.length < count) : text ≠ List.replicate count c := by
  intro same
  rw [same, List.length_replicate] at shorter
  exact Nat.lt_irrefl count shorter

theorem Item.PlacedIn.countsLines {source : String} {item : Item} (placed : item.PlacedIn source)
    (short : source.utf8ByteSize < 2 ^ 32)
    (other : source.toList ≠ List.replicate (2 ^ 32 - 1) '\n') : item.CountsLines source := by
  obtain ⟨front, behind, shape, span, line⟩ := placed
  intro before after split stop
  have same : before = front ++ item.lexeme :=
    eq_of_utf8ByteSize (split.symm.trans shape) (stop.trans (congrArg Span.stop span))
  have size : utf8Size source.toList < 2 ^ 32 := by
    rwa [← utf8ByteSize_ofList, String.ofList_toList]
  have fewer : 1 + before.toList.count '\n' < 2 ^ 32 := by
    have all := newlines_lt size other
    rw [split, String.toList_append, List.count_append] at all
    omega
  rw [line, ← same, UInt32.toNat_ofNat_of_lt' fewer]

theorem utf8Size_newlines (count : Nat) : utf8Size (List.replicate count '\n') = count := by
  induction count with
  | zero => rfl
  | succ count ih =>
    have one : '\n'.utf8Size = 1 := rfl
    rw [List.replicate_succ, utf8Size, ih, one, Nat.add_comm]

/-- A source of newlines has no item but its end, one line below the last of them. -/
theorem scan_newlines (count : Nat) :
    scan (String.ofList (List.replicate count '\n')) =
      [.ok { kind := .endOfInput, lexeme := "", line := 1 + UInt32.ofNat count
             span := ⟨count, count⟩ }] := by
  have skipped : Scanner.trivia (List.replicate count '\n') = List.replicate count '\n' := by
    induction count with
    | zero => rfl
    | succ count ih => rw [List.replicate_succ, Scanner.trivia_spacing rfl, ih]
  have blank : Scanner.trivia (Scanner.ofText (String.ofList (List.replicate count '\n'))).rest =
      (Scanner.ofText (String.ofList (List.replicate count '\n'))).rest := by
    simpa [Scanner.ofText] using skipped
  rw [scan, Scanner.run_of_blank blank]
  simp [Scanner.ofText, Scanner.pass, Scanner.endToken, utf8Size_newlines]

/-- The items of a source below four gigabytes, read with its places in 32 bits, tile it from end to
end; each counts the lines up to its end, unless the source is nothing but newlines and as long as can
be; and they are what requests for one item after another give, with nothing behind them. -/
theorem scan_tiles {source : String} (short : source.utf8ByteSize < 2 ^ 32) :
    (Reader.ofInput (Cursor.indexed 0 source.toList)).items = scan source ∧
      Tiles source 0 (scan source) ∧
      (source.toList ≠ List.replicate (2 ^ 32 - 1) '\n' →
        ∀ item ∈ scan source, item.CountsLines source) ∧
      ∀ count, ((Scanner.ofText source).afterRequests count).next?.1 = (scan source)[count]? := by
  have yields := (Scanner.ofText source).run_yields
  refine ⟨(Reader.items_eq_scan short).1, yields.tiles (.ofText source), ?_, yields.requests rfl⟩
  intro other item member
  exact (Item.placedIn_of_mem_scan member).countsLines short other

private def ragged : String := "é // c\n'0a\n0b' @"

/-- A character that is no token, a comment, bytes over two lines and another such character. -/
theorem ragged_tiled :
    ragged.utf8ByteSize < 2 ^ 32 ∧ ragged.toList ≠ List.replicate (2 ^ 32 - 1) '\n' ∧
      (scan ragged).map (fun item => (item.lexeme, item.line.toNat, item.span)) =
        [("é", 1, ⟨0, 2⟩), ("'0a\n0b'", 3, ⟨8, 15⟩), ("@", 3, ⟨16, 17⟩), ("", 3, ⟨17, 17⟩)] ∧
      Tiles ragged 0 (scan ragged) ∧ ∀ item ∈ scan ragged, item.CountsLines ragged := by
  have short : ragged.utf8ByteSize < 2 ^ 32 := by decide +kernel
  have other : ragged.toList ≠ List.replicate (2 ^ 32 - 1) '\n' :=
    ne_replicate_of_length_lt (by decide +kernel)
  obtain ⟨_, tiles, lines, _⟩ := scan_tiles short
  exact ⟨short, other, by decide +kernel, tiles, lines other⟩

/-- The most newlines that stay below four gigabytes take the number of the last line to zero, where
their number and one is 2 ^ 32. -/
theorem newlines_start_over :
    let source := String.ofList (List.replicate (2 ^ 32 - 1) '\n')
    source.utf8ByteSize < 2 ^ 32 ∧ 1 + source.toList.count '\n' = 2 ^ 32 ∧
      (∃ final : Token, scan source = [.ok final] ∧ final.line = 0) ∧
      ¬ ∀ item ∈ scan source, item.CountsLines source := by
  intro source
  have size : source.utf8ByteSize = 2 ^ 32 - 1 := by
    rw [utf8ByteSize_ofList, utf8Size_newlines]
  have counted : source.toList.count '\n' = 2 ^ 32 - 1 := by
    rw [String.toList_ofList, List.count_replicate_self]
  obtain ⟨final, scanned, line, stop⟩ : ∃ final : Token, scan source = [.ok final] ∧
      final.line = 0 ∧ final.span.stop = 2 ^ 32 - 1 := ⟨_, scan_newlines _, by decide, rfl⟩
  refine ⟨by omega, by omega, ⟨final, scanned, line⟩, fun counts => ?_⟩
  have member : .ok final ∈ scan source := scanned ▸ List.mem_singleton.2 rfl
  have last : final.line.toNat = 1 + source.toList.count '\n' :=
    counts _ member source "" (by simp) (size.trans stop.symm)
  rw [counted, line] at last
  exact absurd last (by decide)

end TinyScript

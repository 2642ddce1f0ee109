import TinyScript.Proofs.Canonical
import TinyScript.Proofs.PhraseSound

/-! Tokens that agree with those of a canonical expression, places aside, have a derivation that
spells the expression. -/
namespace TinyScript

open Phrase

/-- The tokens are those of the list, places aside. -/
def Agrees (tokens printed : List Token) : Prop := tokens.map Token.bare = printed

namespace Agrees

variable {tokens : List Token}

theorem of_cons {first : Token} {others : List Token} (agrees : Agrees tokens (first :: others)) :
    ∃ head tail, tokens = head :: tail ∧ head.bare = first ∧ Agrees tail others :=
  List.map_eq_cons_iff.1 agrees

theorem of_append {front back : List Token} (agrees : Agrees tokens (front ++ back)) :
    ∃ before behind, tokens = before ++ behind ∧ Agrees before front ∧ Agrees behind back :=
  List.map_eq_append_iff.1 agrees

theorem of_nil (agrees : Agrees tokens []) : tokens = [] := List.map_eq_nil_iff.1 agrees

theorem of_singleton {token : Token} (agrees : Agrees tokens [token]) :
    ∃ head, tokens = [head] ∧ head.bare = token :=
  List.map_eq_singleton_iff.1 agrees

end Agrees

theorem Token.kind_eq_of_bare {token other : Token} (same : token.bare = other) :
    token.kind = other.kind := by
  rw [← same]
  rfl

theorem Expr.bare_joined (left right : Expr) (operator : Token) :
    (Expr.joined left operator right).bare = Expr.joined left.bare operator.bare right.bare := by
  unfold Expr.joined
  cases kind : operator.kind <;> simp [kind, Expr.bare]

theorem Expr.bares_eq_map (values : List Expr) : Expr.bares values = values.map Expr.bare := by
  induction values with
  | nil => rfl
  | cons first others ih => simp [Expr.bares, ih]

/-- Some derivation at the tier takes the tokens and spells the expression, places aside. -/
def Derived (tier : Tier) (value : Expr) (tokens : List Token) : Prop :=
  ∃ phrase, Derives IsName tier phrase ∧ phrase.tokens = tokens ∧ phrase.expr.bare = value.bare

/-- A value is read from the token it is written as. -/
theorem ofAtom_of_token {token : Token} {value : Primitive} (same : token.bare = value.token) :
    isAtom token.kind = true ∧ Expr.ofAtom token = .literal value := by
  have kind := Token.kind_eq_of_bare same
  have literal : token.literal = value.token.literal := by
    rw [← same]
    rfl
  cases value with
  | bool value => cases value <;> simp_all [Primitive.token, isAtom, Expr.ofAtom]
  | _ =>
    simp_all [Primitive.token, isAtom, Expr.ofAtom, Primitive.ofToken, Primitive.ofLiteral]

theorem arguments_derived {arguments : List Expr} {tokens : List Token}
    (each : ∀ argument ∈ arguments, ∀ tokens, Agrees tokens argument.printed →
      Derived .assignment argument tokens)
    (agrees : Agrees tokens (listed (Expr.printeds arguments))) :
    ∃ (phrases : List Phrase) (commas : List Token),
      (∀ phrase ∈ phrases, Derives IsName .assignment phrase) ∧
      commas.length = phrases.length - 1 ∧ (∀ comma ∈ commas, comma.kind = .comma) ∧
      separated (tokenLists phrases) commas = tokens ∧
      Expr.bares (exprs phrases) = Expr.bares arguments := by
  induction arguments generalizing tokens with
  | nil =>
    obtain rfl := agrees.of_nil
    exact ⟨[], [], by simp, rfl, by simp, rfl, rfl⟩
  | cons first others ih =>
    have front := each first (by simp)
    cases others with
    | nil =>
      obtain ⟨phrase, derives, taken, same⟩ := front tokens agrees
      refine ⟨[phrase], [], by simpa using derives, rfl, by simp, ?_, ?_⟩
      · simpa [tokenLists, separated] using taken
      · simpa [exprs, Expr.bares] using same
    | cons second others =>
      obtain ⟨before, more, rfl, headAgrees, moreAgrees⟩ := agrees.of_append
      obtain ⟨comma, behind, rfl, isComma, tailAgrees⟩ := moreAgrees.of_cons
      obtain ⟨phrase, derives, taken, same⟩ := front before headAgrees
      obtain ⟨phrases, commas, allDerive, between, areCommas, restTaken, restSame⟩ :=
        ih (fun argument member => each argument (by simp [member])) tailAgrees
      obtain ⟨next, later, rfl⟩ : ∃ next later, phrases = next :: later := by
        cases phrases with
        | nil => simp [exprs, Expr.bares] at restSame
        | cons next later => exact ⟨next, later, rfl⟩
      refine ⟨phrase :: next :: later, comma :: commas, ?_, ?_, ?_, ?_, ?_⟩
      · simpa using ⟨derives, by simpa using allDerive⟩
      · simpa using between
      · simpa using ⟨Token.kind_eq_of_bare isComma, areCommas⟩
      · rw [← restTaken, ← taken]
        rfl
      · rw [exprs, Expr.bares, same, restSame]
        rfl

theorem Derived.imp {tier other : Tier} {value : Expr} {tokens : List Token}
    (derived : Derived tier value tokens)
    (production : ∀ {phrase}, Derives IsName tier phrase → Derives IsName other phrase) :
    Derived other value tokens := by
  obtain ⟨phrase, derives, shape⟩ := derived
  exact ⟨phrase, production derives, shape⟩

theorem Expr.Canonical.derived {tier : Tier} {value : Expr} (canonical : value.Canonical tier) :
    ∀ tokens, Agrees tokens value.printed → Derived tier value tokens := by
  induction canonical with
  | chained _ ih => exact fun tokens agrees => (ih tokens agrees).imp .chained
  | operand _ ih => exact fun tokens agrees => (ih tokens agrees).imp .operand
  | unsigned _ ih => exact fun tokens agrees => (ih tokens agrees).imp .unsigned
  | uncalled _ ih => exact fun tokens agrees => (ih tokens agrees).imp .uncalled
  | uncounted _ ih => exact fun tokens agrees => (ih tokens agrees).imp .uncounted
  | @assign name value named inner ih =>
    intro tokens agrees
    obtain ⟨target, more, rfl, sameName, moreAgrees⟩ := agrees.of_cons
    obtain ⟨equals, behind, rfl, isAssign, behindAgrees⟩ := moreAgrees.of_cons
    obtain ⟨phrase, derives, rfl, same⟩ := ih behind behindAgrees
    have isName : target.kind = .identifier := (Token.kind_eq_of_bare sameName).trans named.kind
    refine ⟨.assigned target equals phrase,
      .assigned isName (Token.kind_eq_of_bare isAssign) derives, rfl, ?_⟩
    simp [expr, Expr.bare, sameName, same]
  | @join level left right operator joins spelled leftward rightward ihLeft ihRight =>
    intro tokens agrees
    rw [Level.printed_join] at agrees
    obtain ⟨before, more, rfl, leftAgrees, moreAgrees⟩ := agrees.of_append
    obtain ⟨sign, behind, rfl, sameSign, rightAgrees⟩ := moreAgrees.of_cons
    obtain ⟨first, firstDerives, rfl, sameLeft⟩ := ihLeft before leftAgrees
    obtain ⟨second, secondDerives, rfl, sameRight⟩ := ihRight behind rightAgrees
    have signJoins : level.joins sign.kind = true := by
      rw [Token.kind_eq_of_bare sameSign]
      exact joins
    refine ⟨.joined first sign second, .joined signJoins firstDerives secondDerives, rfl, ?_⟩
    rw [expr, Level.join_eq_joined joins, Expr.bare_joined, Expr.bare_joined, sameLeft, sameSign,
      sameRight]
  | @unary operator right sign spelled inner ih =>
    intro tokens agrees
    obtain ⟨mark, behind, rfl, sameSign, behindAgrees⟩ := agrees.of_cons
    obtain ⟨phrase, derives, rfl, same⟩ := ih behind behindAgrees
    have isSign : TinyScript.isSign mark.kind = true := by
      rw [Token.kind_eq_of_bare sameSign]
      exact sign
    refine ⟨.signed mark phrase, .signed isSign derives, rfl, ?_⟩
    simp [expr, Expr.bare, sameSign, same]
  | @call callee paren arguments called isClosing spelled values short ihCallee ihValues =>
    intro tokens agrees
    rw [Expr.printed, List.append_assoc] at agrees
    obtain ⟨before, more, rfl, calleeAgrees, moreAgrees⟩ := agrees.of_append
    obtain ⟨opening, behind, rfl, isOpening, behindAgrees⟩ := moreAgrees.of_cons
    obtain ⟨inside, last, rfl, insideAgrees, lastAgrees⟩ := behindAgrees.of_append
    obtain ⟨closing, rfl, sameClosing⟩ := lastAgrees.of_singleton
    obtain ⟨target, derives, rfl, same⟩ := ihCallee before calleeAgrees
    obtain ⟨phrases, commas, allDerive, between, areCommas, rfl, sameValues⟩ :=
      arguments_derived ihValues insideAgrees
    have sameLength : phrases.length = arguments.length := by
      simpa [Expr.bares_eq_map, exprs_eq_map] using congrArg List.length sameValues
    have isParen : closing.kind = .rightParen := (Token.kind_eq_of_bare sameClosing).trans isClosing
    refine ⟨.call target opening phrases commas closing, .call derives
      (Token.kind_eq_of_bare isOpening) allDerive between areCommas (sameLength ▸ short) isParen,
      by simp [Phrase.tokens], ?_⟩
    simp [expr, Expr.bare, same, sameClosing, sameValues]
  | @increment name sign named isCount spelled =>
    intro tokens agrees
    obtain ⟨target, more, rfl, sameName, moreAgrees⟩ := agrees.of_cons
    obtain ⟨mark, rfl, sameSign⟩ := moreAgrees.of_singleton
    have isName : target.kind = .identifier := (Token.kind_eq_of_bare sameName).trans named.kind
    have counts : isIncrement mark.kind = true := by
      rw [Token.kind_eq_of_bare sameSign]
      exact isCount
    refine ⟨.counted (.atom target) mark, .counted (.atom (by simp [isName, isAtom])) isName counts,
      rfl, ?_⟩
    simp [expr, Expr.ofAtom, isName, incremented, Expr.bare, sameName, sameSign]
  | @literal value writable =>
    intro tokens agrees
    obtain ⟨token, rfl, same⟩ := agrees.of_singleton
    obtain ⟨atomic, spells⟩ := ofAtom_of_token same
    exact ⟨.atom token, .atom atomic, rfl, by rw [expr, spells]⟩
  | @var name named =>
    intro tokens agrees
    obtain ⟨token, rfl, same⟩ := agrees.of_singleton
    have isName : token.kind = .identifier := (Token.kind_eq_of_bare same).trans named.kind
    refine ⟨.atom token, .atom (by simp [isName, isAtom]), rfl, ?_⟩
    simp [expr, Expr.ofAtom, isName, Expr.bare, same]
  | @grouping inner grouped ih =>
    intro tokens agrees
    rw [Expr.printed, List.cons_append] at agrees
    obtain ⟨opening, more, rfl, isOpening, moreAgrees⟩ := agrees.of_cons
    obtain ⟨inside, last, rfl, insideAgrees, lastAgrees⟩ := moreAgrees.of_append
    obtain ⟨closing, rfl, isClosing⟩ := lastAgrees.of_singleton
    obtain ⟨phrase, derives, rfl, same⟩ := ih inside insideAgrees
    refine ⟨.group opening phrase closing, .group (Token.kind_eq_of_bare isOpening) derives
      (Token.kind_eq_of_bare isClosing), rfl, ?_⟩
    simp [expr, Expr.bare, same]

end TinyScript

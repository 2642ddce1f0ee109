import TinyScript.Proofs.PhraseComplete

/-! An expression and its tokens leave no choice of derivation: a tree fixes the shape of the
phrase it was built from, and the shape fixes which token stands where. -/
namespace TinyScript

open Phrase

namespace Phrase

/-- The shapes that phrases and expressions have in common. -/
inductive Form where
  | atom | group | counted | call | signed | joined | assigned
deriving DecidableEq

def form : Phrase → Form
  | .atom _ => .atom
  | .group .. => .group
  | .counted .. => .counted
  | .call .. => .call
  | .signed .. => .signed
  | .joined .. => .joined
  | .assigned .. => .assigned

end Phrase

def Expr.form : Expr → Form
  | .literal _ | .var _ => .atom
  | .grouping _ => .group
  | .unary .. => .signed
  | .binary .. | .logical .. => .joined
  | .assign .. => .assigned
  | .call .. => .call
  | .increment .. => .counted

theorem Expr.form_ofAtom (token : Token) : (Expr.ofAtom token).form = .atom := by
  unfold Expr.ofAtom
  split <;> rfl

theorem Expr.form_joined (left right : Expr) (operator : Token) :
    (Expr.joined left operator right).form = .joined := by
  unfold Expr.joined
  split <;> rfl

theorem Expr.joined_inj {left right left' right' : Expr} {operator operator' : Token}
    (same : Expr.joined left operator right = Expr.joined left' operator' right') :
    left = left' ∧ operator = operator' ∧ right = right' := by
  unfold Expr.joined at same
  split at same <;> split at same <;> simp_all

namespace Phrase

/-- What the parts of a derived phrase are, whatever its place. -/
def Composed : Phrase → Prop
  | .atom _ => True
  | .group _ inner _ => ∃ tier, Derives IsName tier inner
  | .counted target _ => target.IsName
  | .call callee _ arguments commas _ => (∃ tier, Derives IsName tier callee) ∧
      (∀ argument ∈ arguments, Derives IsName .assignment argument) ∧
      commas.length = arguments.length - 1
  | .signed _ right => ∃ tier, Derives IsName tier right
  | .joined left _ right => (∃ tier, Derives IsName tier left) ∧ ∃ tier, Derives IsName tier right
  | .assigned _ _ value => ∃ tier, Derives IsName tier value

theorem Derives.composed {tier : Tier} {phrase : Phrase} (derives : Derives IsName tier phrase) :
    phrase.Composed := by
  induction derives with
  | chained _ ih | operand _ ih | unsigned _ ih | uncalled _ ih | uncounted _ ih => exact ih
  | assigned _ _ inner | signed _ inner | group _ inner => exact ⟨_, inner⟩
  | joined _ leftward rightward => exact ⟨⟨_, leftward⟩, ⟨_, rightward⟩⟩
  | call called _ values between => exact ⟨⟨_, called⟩, values, between⟩
  | counted _ counts => exact counts
  | atom => trivial

theorem Composed.form_expr {phrase : Phrase} (composed : phrase.Composed) :
    phrase.expr.form = phrase.form := by
  cases phrase with
  | atom token => exact Expr.form_ofAtom token
  | counted target sign =>
    obtain ⟨name, _, _, same⟩ := expr_counted sign composed
    rw [same]
    rfl
  | joined left operator right => exact Expr.form_joined _ _ _
  | _ => rfl

/-- A phrase is the only one with its tree among those that start the same text. -/
def Determined (phrase : Phrase) : Prop :=
  ∀ other rest more, other.Composed → phrase.expr = other.expr →
    phrase.tokens ++ rest = other.tokens ++ more → phrase = other ∧ rest = more

theorem separated_determined {arguments others : List Phrase} {commas marks rest more : List Token}
    (determined : ∀ argument ∈ arguments, argument.Determined)
    (derives : ∀ argument ∈ others, Derives IsName .assignment argument)
    (between : commas.length = arguments.length - 1) (inside : marks.length = others.length - 1)
    (sameExprs : exprs arguments = exprs others)
    (sameTokens : separated (tokenLists arguments) commas ++ rest =
      separated (tokenLists others) marks ++ more) :
    arguments = others ∧ commas = marks ∧ rest = more := by
  induction arguments generalizing others commas marks with
  | nil =>
    obtain rfl : others = [] := by simpa [exprs_eq_map] using sameExprs.symm
    obtain rfl : commas = [] := by simpa using between
    obtain rfl : marks = [] := by simpa using inside
    exact ⟨rfl, rfl, by simpa [tokenLists, separated] using sameTokens⟩
  | cons first later ih =>
    cases others with
    | nil => simp [exprs] at sameExprs
    | cons head tail =>
      simp only [exprs, List.cons.injEq] at sameExprs
      have firstDetermined := determined first (by simp)
      have headComposed := (derives head (by simp)).composed
      cases later with
      | nil =>
        obtain rfl : tail = [] := by simpa [exprs_eq_map] using sameExprs.2.symm
        obtain rfl : commas = [] := by simpa using between
        obtain rfl : marks = [] := by simpa using inside
        simp only [tokenLists, separated] at sameTokens
        obtain ⟨rfl, rfl⟩ := firstDetermined head rest more headComposed sameExprs.1 sameTokens
        exact ⟨rfl, rfl, rfl⟩
      | cons second later =>
        cases tail with
        | nil => simp [exprs] at sameExprs
        | cons next tail =>
          cases commas with
          | nil => simp at between
          | cons comma commas =>
            cases marks with
            | nil => simp at inside
            | cons mark marks =>
              simp only [tokenLists, separated, List.append_assoc, List.cons_append] at sameTokens
              obtain ⟨rfl, behind⟩ :=
                firstDetermined head _ _ headComposed sameExprs.1 sameTokens
              obtain ⟨rfl, deeper⟩ := List.cons.inj behind
              obtain ⟨same, rfl, rfl⟩ := ih
                (fun argument member => determined argument (by simp [member]))
                (fun argument member => derives argument (by simp [member])) (by simpa using between)
                (by simpa using inside) sameExprs.2 deeper
              exact ⟨by rw [same], rfl, rfl⟩

theorem Derives.determined {tier : Tier} {phrase : Phrase} (derives : Derives IsName tier phrase) :
    phrase.Determined := by
  induction derives with
  | chained _ ih | operand _ ih | unsigned _ ih | uncalled _ ih | uncounted _ ih => exact ih
  | @atom token _ =>
    intro other rest more composed sameExpr sameTokens
    have sameForm := composed.form_expr.symm.trans (congrArg Expr.form sameExpr.symm)
    rw [expr, Expr.form_ofAtom] at sameForm
    cases other with
    | atom mark => simpa [Phrase.tokens] using sameTokens
    | _ => simp [form] at sameForm
  | @group opening closing inner _ grouped _ ih =>
    intro other rest more composed sameExpr sameTokens
    have sameForm := composed.form_expr.symm.trans (congrArg Expr.form sameExpr.symm)
    cases other with
    | group first middle last =>
      obtain ⟨_, innerDerives⟩ := composed
      simp only [expr, Expr.grouping.injEq] at sameExpr
      simp only [Phrase.tokens, List.cons_append, List.append_assoc, List.nil_append,
        List.cons.injEq] at sameTokens
      obtain ⟨rfl, behind⟩ := ih middle _ _ innerDerives.composed sameExpr sameTokens.2
      simpa [sameTokens.1] using behind
    | _ => simp [form, expr, Expr.form] at sameForm
  | @counted target sign _ counts _ ih =>
    intro other rest more composed sameExpr sameTokens
    have sameForm := composed.form_expr.symm.trans (congrArg Expr.form sameExpr.symm)
    obtain ⟨name, rfl, _, built⟩ := expr_counted sign counts
    rw [built] at sameForm
    cases other with
    | counted counter mark =>
      obtain ⟨_, rfl, _, _⟩ := expr_counted mark composed
      simpa [Phrase.tokens, and_assoc] using sameTokens
    | _ => simp [form, Expr.form] at sameForm
  | @call callee opening closing arguments commas called _ values between _ _ _ ihCallee ihValues =>
    intro other rest more composed sameExpr sameTokens
    have sameForm := composed.form_expr.symm.trans (congrArg Expr.form sameExpr.symm)
    cases other with
    | call target first others marks last =>
      obtain ⟨⟨_, targetDerives⟩, othersDerive, inside⟩ := composed
      simp only [expr, Expr.call.injEq] at sameExpr
      simp only [Phrase.tokens, List.append_assoc, List.cons_append, List.nil_append] at sameTokens
      obtain ⟨rfl, behind⟩ := ihCallee target _ _ targetDerives.composed sameExpr.1 sameTokens
      obtain ⟨rfl, inner⟩ := List.cons.inj behind
      obtain ⟨rfl, rfl, after⟩ := separated_determined ihValues othersDerive between inside
        sameExpr.2.2 inner
      simpa using after
    | _ => simp [form, expr, Expr.form] at sameForm
  | @signed operator right _ inner ih =>
    intro other rest more composed sameExpr sameTokens
    have sameForm := composed.form_expr.symm.trans (congrArg Expr.form sameExpr.symm)
    cases other with
    | signed mark operand =>
      obtain ⟨_, operandDerives⟩ := composed
      simp only [expr, Expr.unary.injEq] at sameExpr
      simp only [Phrase.tokens, List.cons_append, List.cons.injEq] at sameTokens
      obtain ⟨rfl, rfl⟩ := ih operand _ _ operandDerives.composed sameExpr.2 sameTokens.2
      exact ⟨by rw [sameExpr.1], rfl⟩
    | _ => simp [form, expr, Expr.form] at sameForm
  | @joined level left right operator _ leftward rightward ihLeft ihRight =>
    intro other rest more composed sameExpr sameTokens
    have sameForm := composed.form_expr.symm.trans (congrArg Expr.form sameExpr.symm)
    rw [expr, Expr.form_joined] at sameForm
    cases other with
    | joined first mark second =>
      obtain ⟨⟨_, firstDerives⟩, ⟨_, secondDerives⟩⟩ := composed
      obtain ⟨sameLeft, rfl, sameRight⟩ := Expr.joined_inj sameExpr
      simp only [Phrase.tokens, List.append_assoc, List.cons_append] at sameTokens
      obtain ⟨rfl, behind⟩ := ihLeft first _ _ firstDerives.composed sameLeft sameTokens
      obtain ⟨_, after⟩ := List.cons.inj behind
      obtain ⟨rfl, rfl⟩ := ihRight second _ _ secondDerives.composed sameRight after
      exact ⟨rfl, rfl⟩
    | _ => simp [form] at sameForm
  | @assigned name equals value _ _ assigned ih =>
    intro other rest more composed sameExpr sameTokens
    have sameForm := composed.form_expr.symm.trans (congrArg Expr.form sameExpr.symm)
    cases other with
    | assigned target mark source =>
      obtain ⟨_, sourceDerives⟩ := composed
      simp only [expr, Expr.assign.injEq] at sameExpr
      simp only [Phrase.tokens, List.cons_append, List.cons.injEq] at sameTokens
      obtain ⟨rfl, rfl⟩ := ih source _ _ sourceDerives.composed sameExpr.2 sameTokens.2.2
      exact ⟨by rw [sameTokens.1, sameTokens.2.1], rfl⟩
    | _ => simp [form, expr, Expr.form] at sameForm

end Phrase

end TinyScript

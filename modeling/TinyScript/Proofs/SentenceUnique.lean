import TinyScript.Proofs.PhraseUnique
import TinyScript.Proofs.SentenceComplete

/-! Two derivations of the same tokens are the same derivation. The parts of a sentence are read one
after another, and reading has one outcome, so both derivations put their seams at the same
places. -/
namespace TinyScript

open Phrase

variable {rest more : List Token}

/-- An expression in front of a token that ends it. -/
theorem Phrase.Derives.unique {phrase other : Phrase}
    (derives : Derives IsName .assignment phrase) (otherDerives : Derives IsName .assignment other)
    {stop mark : Token}
    (stops : stop.kind = .semicolon ∨ stop.kind = .comma ∨ stop.kind = .rightParen)
    (marks : mark.kind = .semicolon ∨ mark.kind = .comma ∨ mark.kind = .rightParen)
    (same : phrase.tokens ++ stop :: rest = other.tokens ++ mark :: more) :
    phrase = other ∧ stop = mark ∧ rest = more := by
  have reads : (Grammar.expression stop (phrase.tokens ++ stop :: rest)).Reads phrase.expr
      (stop :: rest) := Grammar.expression_reads derives rest stops
  have otherReads : (Grammar.expression stop (other.tokens ++ mark :: more)).Reads other.expr
      (mark :: more) := Grammar.expression_reads otherDerives more marks
  rw [same] at reads
  obtain ⟨sameExpr, _⟩ := reads.unique otherReads
  obtain ⟨rfl, behind⟩ := derives.determined other _ _ otherDerives.composed sameExpr same
  exact ⟨rfl, List.cons.inj behind⟩

/-- An expression that may be missing, in front of the token that closes it. -/
theorem optional_unique {phrase other : Option Phrase}
    (derives : ∀ present, phrase = some present → Derives IsName .assignment present)
    (otherDerives : ∀ present, other = some present → Derives IsName .assignment present)
    {stop mark : Token} (sameKind : stop.kind = mark.kind)
    (stops : stop.kind = .semicolon ∨ stop.kind = .rightParen)
    (same : optionalTokens phrase ++ stop :: rest = optionalTokens other ++ mark :: more) :
    phrase = other ∧ stop = mark ∧ rest = more := by
  have unopened : Tier.assignment.opensWith stop.kind = false := by
    rcases stops with kind | kind <;> rw [kind] <;> rfl
  cases phrase with
  | none =>
    cases other with
    | none => exact ⟨rfl, List.cons.inj same⟩
    | some present =>
      have none := Grammar.not_starts_of_derives (otherDerives present rfl) (mark :: more) unopened
      simp only [optionalTokens] at same
      rw [← same] at none
      simp at none
  | some value =>
    cases other with
    | none =>
      have none := Grammar.not_starts_of_derives (derives value rfl) (stop :: rest) unopened
      simp only [optionalTokens] at same
      rw [same] at none
      simp [sameKind] at none
    | some present =>
      obtain ⟨rfl, ends⟩ := (derives value rfl).unique (otherDerives present rfl)
        (stops.imp_right .inr) (sameKind ▸ stops.imp_right .inr) same
      exact ⟨rfl, ends⟩

theorem VariableTree.Derives.unique {tree other : VariableTree} (derives : tree.Derives IsName)
    (otherDerives : other.Derives IsName) (same : tree.tokens ++ rest = other.tokens ++ more) :
    tree = other ∧ rest = more := by
  obtain ⟨keyword, name, initial, semicolon⟩ := tree
  obtain ⟨word, identifier, first, mark⟩ := other
  obtain ⟨_, _, initialDerives, closed⟩ := derives
  obtain ⟨_, _, firstDerives, ends⟩ := otherDerives
  -- The token behind the name tells whether there is an initial value.
  have assigns {entry : Option (Token × Phrase)} {equals : Token} {value : Phrase}
      (entryDerives : ∀ equals value, entry = some (equals, value) →
        equals.kind = .assign ∧ Phrase.Derives IsName .assignment value)
      (present : entry = some (equals, value)) : equals.kind ≠ .semicolon := by
    rw [(entryDerives equals value present).1]
    decide
  cases initial with
  | none =>
    cases first with
    | none => simpa [VariableTree.tokens, and_assoc] using same
    | some entry =>
      obtain ⟨equals, value⟩ := entry
      have isAssign := assigns firstDerives rfl
      simp only [VariableTree.tokens, List.cons_append, List.cons.injEq] at same
      exact absurd (same.2.2.1 ▸ closed) isAssign
  | some entry =>
    obtain ⟨equals, value⟩ := entry
    have isAssign := assigns initialDerives rfl
    cases first with
    | none =>
      simp only [VariableTree.tokens, List.cons_append, List.cons.injEq] at same
      exact absurd (same.2.2.1 ▸ ends) isAssign
    | some entry =>
      obtain ⟨sign, source⟩ := entry
      obtain ⟨_, valueDerives⟩ := initialDerives equals value rfl
      obtain ⟨_, sourceDerives⟩ := firstDerives sign source rfl
      simp only [VariableTree.tokens, List.cons_append, List.append_assoc, List.nil_append,
        List.cons.injEq] at same
      obtain ⟨rfl, rfl, rfl, behind⟩ := same
      obtain ⟨rfl, rfl, rfl⟩ := valueDerives.unique sourceDerives (.inl closed) (.inl ends) behind
      exact ⟨rfl, rfl⟩

theorem ConditionTree.Derives.unique {word : Keyword} {tree other : ConditionTree}
    (derives : tree.Derives IsName word) (otherDerives : other.Derives IsName word)
    (same : tree.tokens ++ rest = other.tokens ++ more) : tree = other ∧ rest = more := by
  obtain ⟨keyword, opening, value, closing⟩ := tree
  obtain ⟨start, first, source, last⟩ := other
  simp only [ConditionTree.tokens, List.cons_append, List.append_assoc, List.nil_append,
    List.cons.injEq] at same
  obtain ⟨rfl, rfl, behind⟩ := same
  obtain ⟨rfl, rfl, rfl⟩ := derives.condition.unique otherDerives.condition
    (.inr (.inr derives.closed)) (.inr (.inr otherDerives.closed)) behind
  exact ⟨rfl, rfl⟩

/-- The kind of the first token of what a `for` loop starts with. -/
def ForStart.leads : ForStart → TokenKind → Bool
  | .absent _, kind => kind == .semicolon
  | .declare _, kind => kind == .keyword .varWord
  | .expression .., kind => Tier.assignment.opensWith kind

theorem ForStart.Derives.leads {start : ForStart} (derives : start.Derives IsName)
    (rest : List Token) :
    ∃ first others, start.tokens ++ rest = first :: others ∧ start.leads first.kind = true := by
  cases derives with
  | absent closed => exact ⟨_, _, rfl, by simp [ForStart.leads, closed]⟩
  | declare declares => exact ⟨_, _, rfl, by simp [ForStart.leads, declares.isVar]⟩
  | expression evaluates =>
    obtain ⟨first, others, shape, opens⟩ := evaluates.opens
    exact ⟨first, _, by rw [ForStart.tokens, shape]; rfl, opens⟩

theorem ForStart.Derives.unique {start other : ForStart} (derives : start.Derives IsName)
    (otherDerives : other.Derives IsName) (same : start.tokens ++ rest = other.tokens ++ more) :
    start = other ∧ rest = more := by
  obtain ⟨first, behind, shape, leads⟩ := derives.leads rest
  obtain ⟨head, after, form, heads⟩ := otherDerives.leads more
  obtain ⟨rfl, _⟩ := List.cons.inj (shape.symm.trans (same.trans form))
  cases derives with
  | absent =>
    simp only [ForStart.leads, beq_iff_eq] at leads
    cases otherDerives with
    | absent => simpa [ForStart.tokens] using same
    | _ => simp [leads, ForStart.leads, Tier.opensWith, isAtom, isSign] at heads
  | declare declares =>
    simp only [ForStart.leads, beq_iff_eq] at leads
    cases otherDerives with
    | declare otherDeclares =>
      obtain ⟨rfl, rfl⟩ := declares.unique otherDeclares same
      exact ⟨rfl, rfl⟩
    | _ => simp [leads, ForStart.leads, Tier.opensWith, isAtom, isSign] at heads
  | expression evaluates closed =>
    cases otherDerives with
    | expression otherEvaluates ends =>
      simp only [ForStart.tokens, List.append_assoc, List.cons_append, List.nil_append] at same
      obtain ⟨rfl, rfl, rfl⟩ := evaluates.unique otherEvaluates (.inl closed) (.inl ends) same
      exact ⟨rfl, rfl⟩
    | _ =>
      simp only [ForStart.leads, beq_iff_eq] at heads
      simp [heads, ForStart.leads, Tier.opensWith, isAtom, isSign] at leads

theorem ForTree.Derives.unique {tree other : ForTree} (derives : tree.Derives IsName)
    (otherDerives : other.Derives IsName) (same : tree.tokens ++ rest = other.tokens ++ more) :
    tree = other ∧ rest = more := by
  obtain ⟨keyword, opening, start, condition, semicolon, increment, closing⟩ := tree
  obtain ⟨word, first, begin, test, mark, change, last⟩ := other
  obtain ⟨_, _, begins, conditionDerives, divided, incrementDerives, closed⟩ := derives
  obtain ⟨_, _, starts, testDerives, parted, changeDerives, ends⟩ := otherDerives
  simp only [ForTree.tokens, List.cons_append, List.append_assoc, List.nil_append,
    List.cons.injEq] at same
  obtain ⟨rfl, rfl, behind⟩ := same
  obtain ⟨rfl, after⟩ := begins.unique starts behind
  obtain ⟨rfl, rfl, further⟩ := optional_unique conditionDerives testDerives
    (divided.trans parted.symm) (.inl divided) after
  obtain ⟨rfl, rfl, rfl⟩ := optional_unique incrementDerives changeDerives
    (closed.trans ends.symm) (.inr closed) further
  exact ⟨rfl, rfl⟩

/-- What can stand between the parentheses of a parameter list. -/
structure ParameterList (names commas : List Token) : Prop where
  areNames : ∀ name ∈ names, name.kind = .identifier
  between : commas.length = names.length - 1
  areCommas : ∀ comma ∈ commas, comma.kind = .comma

theorem ParameterList.tail {first second comma : Token} {names commas : List Token}
    (listed : ParameterList (first :: second :: names) (comma :: commas)) :
    ParameterList (second :: names) commas where
  areNames name member := listed.areNames name (by simp [member])
  between := by simpa using listed.between
  areCommas other member := listed.areCommas other (by simp [member])

theorem ParameterList.unique {names commas others marks : List Token} {closing ending : Token}
    (listed : ParameterList names commas) (otherListed : ParameterList others marks)
    (closed : closing.kind = .rightParen) (ends : ending.kind = .rightParen)
    (same : separated (names.map ([·])) commas ++ closing :: rest =
      separated (others.map ([·])) marks ++ ending :: more) :
    names = others ∧ commas = marks ∧ closing = ending ∧ rest = more := by
  induction names generalizing commas others marks with
  | nil =>
    obtain rfl : commas = [] := by simpa using listed.between
    cases others with
    | nil =>
      obtain rfl : marks = [] := by simpa using otherListed.between
      simpa [separated] using same
    | cons head tail =>
      obtain ⟨front, shape⟩ := separated_cons [head] (tail.map ([·])) marks
      simp only [List.map_cons, shape, List.cons_append, List.nil_append, List.map_nil, separated,
        List.cons.injEq] at same
      simp [same.1, otherListed.areNames head (by simp)] at closed
  | cons first later ih =>
    have isName := listed.areNames first (by simp)
    cases others with
    | nil =>
      obtain ⟨front, shape⟩ := separated_cons [first] (later.map ([·])) commas
      simp only [List.map_cons, shape, List.cons_append, List.nil_append, List.map_nil, separated,
        List.cons.injEq] at same
      simp [← same.1, isName] at ends
    | cons head tail =>
      -- Behind a name, a comma goes on with the list and a parenthesis closes it.
      cases later with
      | nil =>
        obtain rfl : commas = [] := by simpa using listed.between
        cases tail with
        | nil =>
          obtain rfl : marks = [] := by simpa using otherListed.between
          simpa [separated] using same
        | cons next tail =>
          cases marks with
          | nil => simpa using otherListed.between
          | cons mark marks =>
            simp only [List.map_cons, List.map_nil, separated, List.cons_append, List.nil_append,
              List.cons.injEq] at same
            simp [same.2.1, otherListed.areCommas mark (by simp)] at closed
      | cons second later =>
        cases commas with
        | nil => simpa using listed.between
        | cons comma commas =>
          cases tail with
          | nil =>
            obtain rfl : marks = [] := by simpa using otherListed.between
            simp only [List.map_cons, List.map_nil, separated, List.cons_append, List.nil_append,
              List.cons.injEq] at same
            simp [← same.2.1, listed.areCommas comma (by simp)] at ends
          | cons next tail =>
            cases marks with
            | nil => simpa using otherListed.between
            | cons mark marks =>
              simp only [List.map_cons, separated, List.cons_append, List.nil_append,
                List.cons.injEq] at same
              obtain ⟨rfl, rfl, behind⟩ := same
              obtain ⟨sameNames, rfl, rfl, rfl⟩ := ih listed.tail otherListed.tail behind
              exact ⟨by rw [sameNames], rfl, rfl, rfl⟩

theorem FunctionTree.Derives.unique {tree other : FunctionTree} (derives : tree.Derives)
    (otherDerives : other.Derives) (same : tree.tokens ++ rest = other.tokens ++ more) :
    tree = other ∧ rest = more := by
  obtain ⟨keyword, name, opening, parameters, commas, closing, brace⟩ := tree
  obtain ⟨word, identifier, first, names, marks, last, curly⟩ := other
  obtain ⟨_, _, _, areNames, between, areCommas, _, closed, _⟩ := derives
  obtain ⟨_, _, _, othersNames, othersBetween, areMarks, _, ends, _⟩ := otherDerives
  simp only [FunctionTree.tokens, List.cons_append, List.append_assoc, List.nil_append,
    List.cons.injEq] at same
  obtain ⟨rfl, rfl, rfl, behind⟩ := same
  obtain ⟨rfl, rfl, rfl, after⟩ := ParameterList.unique ⟨areNames, between, areCommas⟩
    ⟨othersNames, othersBetween, areMarks⟩ closed ends behind
  obtain ⟨rfl, rfl⟩ := List.cons.inj after
  exact ⟨rfl, rfl⟩

namespace Sentence

variable {printing : Bool}

/-- The productions of the statement grammar, as far as the first two tokens tell them apart. -/
inductive Lead where
  | declare | function | expression | print | ret | block | conditional | loop | forLoop
deriving DecidableEq

def lead : Sentence → Lead
  | .declare _ => .declare
  | .function .. => .function
  | .expression .. => .expression
  | .print .. => .print
  | .ret .. => .ret
  | .block .. => .block
  | .branch .. | .choice .. => .conditional
  | .loop .. => .loop
  | .forLoop .. => .forLoop

def leadOf (printing : Bool) : List Token → Lead
  | [] => .expression
  | first :: rest =>
    match first.kind with
    | .keyword .varWord => .declare
    | .keyword .funWord => .function
    | .keyword .returnWord => .ret
    | .leftBrace => .block
    | .keyword .ifWord => .conditional
    | .keyword .whileWord => .loop
    | .keyword .forWord => .forLoop
    | _ => if opensPrint printing (first :: rest) then .print else .expression

/-- The parts of a derived sentence, whatever its place. -/
def Composed (printing : Bool) : Sentence → Prop
  | .declare tree => tree.Derives IsName
  | .function head body closing => head.Derives ∧
      (∀ sentence ∈ body, sentence.Derives IsName printing .declaration) ∧ closing.kind = .rightBrace
  | .expression value semicolon => Phrase.Derives IsName .assignment value ∧
      semicolon.kind = .semicolon ∧ opensPrint printing (value.tokens ++ [semicolon]) = false
  | .print keyword value semicolon => Phrase.Derives IsName .assignment value ∧
      semicolon.kind = .semicolon ∧ opensPrint printing (keyword :: value.tokens ++ [semicolon]) = true
  | .ret keyword value semicolon => keyword.kind = .keyword .returnWord ∧
      (∀ present, value = some present → Phrase.Derives IsName .assignment present) ∧
      semicolon.kind = .semicolon
  | .block opening body closing => opening.kind = .leftBrace ∧
      (∀ sentence ∈ body, sentence.Derives IsName printing .declaration) ∧ closing.kind = .rightBrace
  | .branch head consequent =>
      head.Derives IsName .ifWord ∧ consequent.Derives IsName printing .statement
  | .choice head consequent otherwise alternative => head.Derives IsName .ifWord ∧
      consequent.Derives IsName printing .statement ∧ consequent.takesElse = false ∧
      otherwise.kind = .keyword .elseWord ∧ alternative.Derives IsName printing .statement
  | .loop head body => head.Derives IsName .whileWord ∧ body.Derives IsName printing .statement
  | .forLoop head body => head.Derives IsName ∧ body.Derives IsName printing .statement

theorem Derives.composed {slot : Slot} {sentence : Sentence}
    (derives : sentence.Derives IsName printing slot) : sentence.Composed printing := by
  induction derives with
  | declare declares => exact declares
  | function heads inner closed => exact ⟨heads, inner, closed⟩
  | statement _ ih => exact ih
  | expression evaluates closed silent => exact ⟨evaluates, closed, silent⟩
  | print evaluates closed prints => exact ⟨evaluates, closed, prints⟩
  | ret isReturn evaluates closed => exact ⟨isReturn, evaluates, closed⟩
  | block opened inner closed => exact ⟨opened, inner, closed⟩
  | branch heads inner => exact ⟨heads, inner⟩
  | choice heads inner nearest isElse last => exact ⟨heads, inner, nearest, isElse, last⟩
  | loop heads inner => exact ⟨heads, inner⟩
  | forLoop heads inner => exact ⟨heads, inner⟩

theorem leadOf_plain {first : Token} (opens : Tier.assignment.opensWith first.kind = true)
    (rest : List Token) :
    leadOf printing (first :: rest) =
      if opensPrint printing (first :: rest) then .print else .expression := by
  rw [leadOf]
  split <;> simp_all [Tier.opensWith, isAtom, isSign]

theorem Composed.leadOf_tokens {sentence : Sentence} (composed : sentence.Composed printing)
    (rest : List Token) : leadOf printing (sentence.tokens ++ rest) = sentence.lead := by
  cases sentence with
  | declare tree => simp [tokens, VariableTree.tokens, leadOf, lead, composed.isVar]
  | function head body closing =>
    simp [tokens, FunctionTree.tokens, leadOf, lead, composed.1.isFun]
  | expression value semicolon =>
    obtain ⟨evaluates, _, silent⟩ := composed
    obtain ⟨first, others, shape, opens⟩ := evaluates.opens
    rw [← opensPrint_append (by simp [shape]) rest] at silent
    simp only [shape, List.cons_append] at silent
    simp only [tokens, shape, List.cons_append, leadOf_plain opens, silent]
    rfl
  | print keyword value semicolon =>
    obtain ⟨_, _, prints⟩ := composed
    have isName := isName_of_opensPrint prints
    rw [← opensPrint_append (by simp) rest] at prints
    simp only [List.cons_append] at prints
    have opens : Tier.assignment.opensWith keyword.kind = true := by
      simp [Tier.opensWith, isName, isAtom]
    simp only [tokens, List.cons_append, leadOf_plain opens, prints]
    rfl
  | ret keyword value semicolon => simp [tokens, leadOf, lead, composed.1]
  | block opening body closing => simp [tokens, leadOf, lead, composed.1]
  | branch head consequent =>
    simp [tokens, ConditionTree.tokens, leadOf, lead, composed.1.isWord]
  | choice head consequent otherwise alternative =>
    simp [tokens, ConditionTree.tokens, leadOf, lead, composed.1.isWord]
  | loop head body => simp [tokens, ConditionTree.tokens, leadOf, lead, composed.1.isWord]
  | forLoop head body => simp [tokens, ForTree.tokens, leadOf, lead, composed.1.isFor]

/-- No `else` that belongs to the sentence follows it. -/
def Closed (sentence : Sentence) (rest : List Token) : Prop :=
  sentence.takesElse = true → starts (· == .keyword .elseWord) rest = false

/-- A sentence is the only one that starts its text. -/
def Determined (printing : Bool) (sentence : Sentence) : Prop :=
  ∀ other rest more, other.Composed printing → sentence.Closed rest → other.Closed more →
    sentence.tokens ++ rest = other.tokens ++ more → sentence = other ∧ rest = more

/-- Where declarations end. -/
def Ends (rest : List Token) : Prop := rest = [] ∨ starts (· == .rightBrace) rest = true

theorem Ends.not_starts {kind : TokenKind} (ends : Ends rest) (other : kind ≠ .rightBrace) :
    starts (· == kind) rest = false := by
  rcases ends with rfl | closes
  · rfl
  · cases rest with
    | nil => rfl
    | cons first after =>
      simp only [starts_cons, beq_iff_eq] at closes
      simp [closes, other.symm]

theorem Ends.of_closing {closing : Token} (closed : closing.kind = .rightBrace)
    (rest : List Token) : Ends (closing :: rest) :=
  .inr (by simp [closed])

theorem Ends.ne_tokens {slot : Slot} {sentence : Sentence} (ends : Ends rest)
    (derives : sentence.Derives IsName printing slot) (more : List Token) :
    rest ≠ sentence.tokens ++ more := by
  rintro rfl
  rcases ends with empty | closes
  · obtain ⟨first, others, shape, _⟩ := derives.opens
    simp [shape] at empty
  · rw [Grammar.not_starts_of_sentence derives more (by cases slot <;> rfl)] at closes
    exact absurd closes (by decide)

theorem closed_allTokens {sentence : Sentence} {body : List Sentence} (ends : Ends rest)
    (derives : ∀ other ∈ body, other.Derives IsName printing .declaration) :
    sentence.Closed (allTokens body ++ rest) :=
  fun _ => Grammar.not_starts_allTokens derives rfl (ends.not_starts (by decide))

theorem body_unique {body others : List Sentence}
    (determined : ∀ sentence ∈ body, sentence.Determined printing)
    (derives : ∀ sentence ∈ body, sentence.Derives IsName printing .declaration)
    (otherDerives : ∀ sentence ∈ others, sentence.Derives IsName printing .declaration)
    (ends : Ends rest) (otherEnds : Ends more)
    (same : allTokens body ++ rest = allTokens others ++ more) : body = others ∧ rest = more := by
  induction body generalizing others with
  | nil =>
    cases others with
    | nil => exact ⟨rfl, same⟩
    | cons head tail =>
      rw [allTokens, allTokens, List.append_assoc] at same
      exact absurd same (ends.ne_tokens (otherDerives head (by simp)) _)
  | cons first later ih =>
    cases others with
    | nil =>
      rw [allTokens, allTokens, List.append_assoc] at same
      exact absurd same.symm (otherEnds.ne_tokens (derives first (by simp)) _)
    | cons head tail =>
      have laterDerive : ∀ sentence ∈ later, sentence.Derives IsName printing .declaration :=
        fun sentence member => derives sentence (by simp [member])
      have tailDerive : ∀ sentence ∈ tail, sentence.Derives IsName printing .declaration :=
        fun sentence member => otherDerives sentence (by simp [member])
      rw [allTokens, allTokens, List.append_assoc, List.append_assoc] at same
      obtain ⟨rfl, behind⟩ := determined first (by simp) head _ _
        (otherDerives head (by simp)).composed (closed_allTokens ends laterDerive)
        (closed_allTokens otherEnds tailDerive) same
      obtain ⟨rfl, rfl⟩ := ih (fun sentence member => determined sentence (by simp [member]))
        laterDerive tailDerive behind
      exact ⟨rfl, rfl⟩

theorem braced_unique {body others : List Sentence} {closing last : Token}
    (determined : ∀ sentence ∈ body, sentence.Determined printing)
    (derives : ∀ sentence ∈ body, sentence.Derives IsName printing .declaration)
    (otherDerives : ∀ sentence ∈ others, sentence.Derives IsName printing .declaration)
    (closed : closing.kind = .rightBrace) (ends : last.kind = .rightBrace)
    (same : allTokens body ++ closing :: rest = allTokens others ++ last :: more) :
    body = others ∧ closing = last ∧ rest = more := by
  obtain ⟨sameBody, after⟩ := body_unique determined derives otherDerives (.of_closing closed rest)
    (.of_closing ends more) same
  exact ⟨sameBody, List.cons.inj after⟩

/-- Sentences that start the same text are alike. -/
theorem Composed.lead_eq {sentence other : Sentence} (composed : sentence.Composed printing)
    (otherComposed : other.Composed printing) (same : sentence.tokens ++ rest = other.tokens ++ more) :
    sentence.lead = other.lead := by
  rw [← composed.leadOf_tokens rest, same, otherComposed.leadOf_tokens more]

section Conditionals

variable {head : ConditionTree} {consequent : Sentence}
variable (heads : head.Derives IsName .ifWord)
variable (inner : consequent.Derives IsName printing .statement)
include heads inner

theorem determined_branch (ih : consequent.Determined printing) :
    (branch head consequent).Determined printing := by
  intro other rest more composed stop otherStop same
  have sameLead := (Derives.branch heads inner).composed.lead_eq composed same
  have noElse := stop rfl
  cases other with
  | branch tree consequent =>
    obtain ⟨otherHeads, otherInner⟩ := composed
    simp only [tokens, List.append_assoc] at same
    obtain ⟨rfl, behind⟩ := heads.unique otherHeads same
    obtain ⟨rfl, rfl⟩ := ih consequent rest more otherInner.composed (fun _ => noElse)
      (fun _ => otherStop rfl) behind
    exact ⟨rfl, rfl⟩
  | choice tree consequent otherwise alternative =>
    -- The `else` of the other sentence would stand behind this one.
    obtain ⟨otherHeads, otherInner, nearest, isElse, _⟩ := composed
    simp only [tokens, List.append_assoc, List.cons_append] at same
    obtain ⟨rfl, behind⟩ := heads.unique otherHeads same
    obtain ⟨rfl, rfl⟩ := ih consequent rest _ otherInner.composed (fun _ => noElse)
      (by simp [Closed, nearest]) behind
    simp [isElse] at noElse
  | _ => simp [lead] at sameLead

theorem determined_choice {otherwise : Token} {alternative : Sentence}
    (nearest : consequent.takesElse = false) (isElse : otherwise.kind = .keyword .elseWord)
    (last : alternative.Derives IsName printing .statement) (ih : consequent.Determined printing)
    (ihLast : alternative.Determined printing) :
    (choice head consequent otherwise alternative).Determined printing := by
  intro other rest more composed stop otherStop same
  have sameLead := (Derives.choice heads inner nearest isElse last).composed.lead_eq composed same
  cases other with
  | branch tree consequent =>
    obtain ⟨otherHeads, otherInner⟩ := composed
    have noElse := otherStop rfl
    simp only [tokens, List.append_assoc, List.cons_append] at same
    obtain ⟨rfl, behind⟩ := heads.unique otherHeads same
    obtain ⟨rfl, rfl⟩ := ih consequent _ more otherInner.composed (by simp [Closed, nearest])
      (fun _ => noElse) behind
    simp [isElse] at noElse
  | choice tree consequent otherwise alternative =>
    obtain ⟨otherHeads, otherInner, otherNearest, _, otherLast⟩ := composed
    simp only [tokens, List.append_assoc, List.cons_append] at same
    obtain ⟨rfl, behind⟩ := heads.unique otherHeads same
    obtain ⟨rfl, after⟩ := ih consequent _ _ otherInner.composed (by simp [Closed, nearest])
      (by simp [Closed, otherNearest]) behind
    obtain ⟨rfl, further⟩ := List.cons.inj after
    obtain ⟨rfl, rfl⟩ := ihLast alternative rest more otherLast.composed stop otherStop further
    exact ⟨rfl, rfl⟩
  | _ => simp [lead] at sameLead

end Conditionals

theorem Derives.determined {slot : Slot} {sentence : Sentence}
    (derives : sentence.Derives IsName printing slot) : sentence.Determined printing := by
  induction derives with
  | statement _ ih => exact ih
  | declare declares =>
    intro other rest more composed _ _ same
    have sameLead := (declare declares).composed.lead_eq composed same
    cases other with
    | declare tree =>
      obtain ⟨rfl, rfl⟩ := declares.unique composed same
      exact ⟨rfl, rfl⟩
    | _ => simp [lead] at sameLead
  | function heads inner closed ih =>
    intro other rest more composed _ _ same
    have sameLead := (function heads inner closed).composed.lead_eq composed same
    cases other with
    | function tree body last =>
      obtain ⟨otherHeads, otherInner, ends⟩ := composed
      simp only [tokens, List.append_assoc, List.cons_append, List.nil_append] at same
      obtain ⟨rfl, behind⟩ := heads.unique otherHeads same
      obtain ⟨rfl, rfl, rfl⟩ := braced_unique ih inner otherInner closed ends behind
      exact ⟨rfl, rfl⟩
    | _ => simp [lead] at sameLead
  | expression evaluates closed silent =>
    intro other rest more composed _ _ same
    have sameLead := (expression evaluates closed silent).composed.lead_eq composed same
    cases other with
    | expression value mark =>
      obtain ⟨otherEvaluates, ends, _⟩ := composed
      simp only [tokens, List.append_assoc, List.cons_append, List.nil_append] at same
      obtain ⟨rfl, rfl, rfl⟩ := evaluates.unique otherEvaluates (.inl closed) (.inl ends) same
      exact ⟨rfl, rfl⟩
    | _ => simp [lead] at sameLead
  | print evaluates closed prints =>
    intro other rest more composed _ _ same
    have sameLead := (print evaluates closed prints).composed.lead_eq composed same
    cases other with
    | print word value mark =>
      obtain ⟨otherEvaluates, ends, _⟩ := composed
      simp only [tokens, List.append_assoc, List.cons_append, List.nil_append, List.cons.injEq]
        at same
      obtain ⟨rfl, behind⟩ := same
      obtain ⟨rfl, rfl, rfl⟩ := evaluates.unique otherEvaluates (.inl closed) (.inl ends) behind
      exact ⟨rfl, rfl⟩
    | _ => simp [lead] at sameLead
  | ret isReturn evaluates closed =>
    intro other rest more composed _ _ same
    have sameLead := (ret isReturn evaluates closed).composed.lead_eq composed same
    cases other with
    | ret word value mark =>
      obtain ⟨_, otherEvaluates, ends⟩ := composed
      simp only [tokens, List.append_assoc, List.cons_append, List.nil_append, List.cons.injEq]
        at same
      obtain ⟨rfl, behind⟩ := same
      obtain ⟨rfl, rfl, rfl⟩ := optional_unique evaluates otherEvaluates (closed.trans ends.symm)
        (.inl closed) behind
      exact ⟨rfl, rfl⟩
    | _ => simp [lead] at sameLead
  | block opened inner closed ih =>
    intro other rest more composed _ _ same
    have sameLead := (block opened inner closed).composed.lead_eq composed same
    cases other with
    | block first body last =>
      obtain ⟨_, otherInner, ends⟩ := composed
      simp only [tokens, List.append_assoc, List.cons_append, List.nil_append, List.cons.injEq]
        at same
      obtain ⟨rfl, behind⟩ := same
      obtain ⟨rfl, rfl, rfl⟩ := braced_unique ih inner otherInner closed ends behind
      exact ⟨rfl, rfl⟩
    | _ => simp [lead] at sameLead
  | branch heads inner ih => exact determined_branch heads inner ih
  | choice heads inner nearest isElse last ih ihLast =>
    exact determined_choice heads inner nearest isElse last ih ihLast
  | loop heads inner ih =>
    intro other rest more composed stop otherStop same
    have sameLead := (loop heads inner).composed.lead_eq composed same
    cases other with
    | loop tree body =>
      obtain ⟨otherHeads, otherInner⟩ := composed
      simp only [tokens, List.append_assoc] at same
      obtain ⟨rfl, behind⟩ := heads.unique otherHeads same
      obtain ⟨rfl, rfl⟩ := ih body rest more otherInner.composed stop otherStop behind
      exact ⟨rfl, rfl⟩
    | _ => simp [lead] at sameLead
  | forLoop heads inner ih =>
    intro other rest more composed stop otherStop same
    have sameLead := (forLoop heads inner).composed.lead_eq composed same
    cases other with
    | forLoop tree body =>
      obtain ⟨otherHeads, otherInner⟩ := composed
      simp only [tokens, List.append_assoc] at same
      obtain ⟨rfl, behind⟩ := heads.unique otherHeads same
      obtain ⟨rfl, rfl⟩ := ih body rest more otherInner.composed stop otherStop behind
      exact ⟨rfl, rfl⟩
    | _ => simp [lead] at sameLead

end Sentence

end TinyScript

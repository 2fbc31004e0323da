import BranchingStory.Expr.Reading

/-
  This file defines the grammar of expressions by itself, as
  the derivations of lists of tokens, and shows that no list
  of tokens has two derivations.

  Key definitions include:
    * `Level`
    * `Joins`
    * `Phrase`
    * `Phrase.tokens`
    * `Phrase.expr`
    * `Phrase.atLevel`
    * `Stops`
    * `Unrolls`

  Key theorems include:
    * `Joins.unique`
    * `Phrase.tokens_head`
    * `Phrase.isDetermined`
    * `Phrase.tokens_injective`
-/

------------------------------------------------------------
-- Levels
------------------------------------------------------------

namespace BranchingStory

/- The levels of expressions, the weakest operators first. -/
inductive Level where
  | or
  | and
  | not
  | comparison
  | sum
  | product
  | negation
  | primary
deriving DecidableEq, Repr

namespace Level

/- The level whose operators are the next stronger ones. -/
def next : Level → Level
  | .or => .and
  | .and => .not
  | .not => .comparison
  | .comparison => .sum
  | .sum => .product
  | .product => .negation
  | .negation => .primary
  | .primary => .primary

/- How strong the operators of a level are. -/
def rank : Level → Nat
  | .or => 0
  | .and => 1
  | .not => 2
  | .comparison => 3
  | .sum => 4
  | .product => 5
  | .negation => 6
  | .primary => 7

/- Whether the operators of a level join any number of parts. -/
def isChain : Level → Bool
  | .or | .and | .sum | .product => true
  | _ => false

/- The next level is stronger by one. -/
theorem rank_next
    {l : Level}
    (hWeak : l ≠ .primary) :
    l.next.rank = l.rank + 1 := by
  cases l <;> first | rfl | exact absurd rfl hWeak

end Level

end BranchingStory

------------------------------------------------------------
-- Operators
------------------------------------------------------------

namespace BranchingStory

/- The tokens that join two operands, with their levels. -/
inductive Joins : Level → Token → BinaryOp → Prop where
  | either : Joins .or (.symbol .either) .or
  | orWord {s : String} (hWord : lowerWord s = "or") :
      Joins .or (.name s) .or
  | both : Joins .and (.symbol .both) .and
  | andWord {s : String} (hWord : lowerWord s = "and") :
      Joins .and (.name s) .and
  | equal : Joins .comparison (.symbol .equal) .equal
  | notEqual : Joins .comparison (.symbol .notEqual) .notEqual
  | less : Joins .comparison (.symbol .less) .less
  | atMost : Joins .comparison (.symbol .atMost) .atMost
  | greater : Joins .comparison (.symbol .greater) .greater
  | atLeast : Joins .comparison (.symbol .atLeast) .atLeast
  | plus : Joins .sum (.symbol .plus) .add
  | minus : Joins .sum (.symbol .minus) .subtract
  | star : Joins .product (.symbol .star) .multiply
  | slash : Joins .product (.symbol .slash) .divide
  | percent : Joins .product (.symbol .percent) .modulo

/- The tokens that negate the truth of what follows. -/
inductive Negates : Token → Prop where
  | bang : Negates (.symbol .bang)
  | notWord {s : String} (hWord : lowerWord s = "not") :
      Negates (.name s)

/- A token joins operands of one level, in one way. -/
theorem Joins.unique
    {l l' : Level}
    {t : Token}
    {op op' : BinaryOp}
    (hJoins : Joins l t op)
    (hJoins' : Joins l' t op') :
    l = l' ∧ op = op' := by
  cases hJoins <;> cases hJoins' <;>
    first
    | exact ⟨rfl, rfl⟩
    | simp_all

/- What joins operands does not negate. -/
theorem Joins.not_negates
    {l : Level}
    {t : Token}
    {op : BinaryOp}
    (hJoins : Joins l t op) :
    ¬ Negates t := by
  intro hNegates
  cases hNegates <;> cases hJoins <;> simp_all

end BranchingStory

------------------------------------------------------------
-- Phrases
------------------------------------------------------------

namespace BranchingStory

/-
  The value of a number as it is written, however long it is:
  a float if it has a point, and otherwise an integer.
-/
def numeralValue
    (s : String) : Value :=
  let cs := s.toList
  if cs.contains '.' then
    .float ((readDouble? cs).getD 0)
  else .int (ofDigits (cs.filterMap digitValue?))

/- Whether a name is a truth value. -/
def isTruth
    (s : String) : Bool :=
  lowerWord s ∈ ["true", "false"]

/- Whether a name is neither a truth value nor an operator. -/
def isReference
    (s : String) : Bool :=
  lowerWord s ∉ ["true", "false", "and", "or", "not"]

/-
  The derivations of expressions.  A phrase of one level is a
  lone phrase of the next level, or is made with an operator
  of the level.  Operators of a chain have all operands to
  their left joined already, and comparisons do not chain.
-/
inductive Phrase : Level → Type where
  | lone {l : Level} (hWeak : l ≠ .primary)
      (p : Phrase l.next) : Phrase l
  | join {l : Level} (hChain : l.isChain = true)
      (t : Token) (op : BinaryOp) (hJoins : Joins l t op)
      (left : Phrase l) (right : Phrase l.next) : Phrase l
  | compare (t : Token) (op : BinaryOp)
      (hJoins : Joins .comparison t op)
      (left right : Phrase .sum) : Phrase .comparison
  | not (t : Token) (hNegates : Negates t)
      (p : Phrase .not) : Phrase .not
  | negate (p : Phrase .negation) : Phrase .negation
  | number (s : String) : Phrase .primary
  | quoted (s : String) : Phrase .primary
  | truth (s : String) (hTruth : isTruth s = true) :
      Phrase .primary
  | target (s : String) : Phrase .primary
  | name (s : String) (hName : isReference s = true) :
      Phrase .primary
  | parens (p : Phrase .or) : Phrase .primary

namespace Phrase

variable {l : Level}

/- The tokens that a phrase derives. -/
@[simp] def tokens {l : Level} : Phrase l → List Token
  | .lone _ p => p.tokens
  | .join _ t _ _ left right =>
      left.tokens ++ t :: right.tokens
  | .compare t _ _ left right =>
      left.tokens ++ t :: right.tokens
  | .not t _ p => t :: p.tokens
  | .negate p => .symbol .minus :: p.tokens
  | .number s => [.number s]
  | .quoted s => [.quoted s]
  | .truth s _ => [.name s]
  | .target s => [.arrow, .name s]
  | .name s _ => [.name s]
  | .parens p =>
      .symbol .openParen ::
        (p.tokens ++ [.symbol .closeParen])

/- The expression that a phrase stands for. -/
@[simp] def expr
    (line : Nat) {l : Level} : Phrase l → Expr
  | .lone _ p => p.expr line
  | .join _ _ op _ left right =>
      .binary op (left.expr line) (right.expr line)
  | .compare _ op _ left right =>
      .binary op (left.expr line) (right.expr line)
  | .not _ _ p => .unary .not (p.expr line)
  | .negate p => .unary .negate (p.expr line)
  | .number s => .literal (numeralValue s)
  | .quoted s =>
      .literal (.string (String.ofList (unescape s.toList)))
  | .truth s _ => .literal (.bool (lowerWord s = "true"))
  | .target s => .target s line none
  | .name s _ => .name s line none
  | .parens p => p.expr line

/- A primary phrase as an operand of comparisons. -/
def atSum
    (p : Phrase .primary) : Phrase .sum :=
  .lone (by decide)
    (.lone (l := .product) (by decide)
      (.lone (l := .negation) (by decide) p))

/- A primary phrase as an operand of "and". -/
def atNot
    (p : Phrase .primary) : Phrase .not :=
  .lone (by decide)
    (.lone (l := .comparison) (by decide) p.atSum)

/- A primary phrase as a phrase of any level. -/
def atLevel
    (p : Phrase .primary) : (l : Level) → Phrase l
  | .primary => p
  | .negation => .lone (by decide) p
  | .product =>
      .lone (by decide) (.lone (l := .negation) (by decide) p)
  | .sum => p.atSum
  | .comparison => .lone (by decide) p.atSum
  | .not => p.atNot
  | .and => .lone (by decide) p.atNot
  | .or =>
      .lone (by decide) (.lone (l := .and) (by decide) p.atNot)

@[simp] theorem tokens_atLevel
    (p : Phrase .primary)
    (l : Level) :
    (p.atLevel l).tokens = p.tokens := by
  cases l <;> rfl

@[simp] theorem expr_atLevel
    (line : Nat)
    (p : Phrase .primary)
    (l : Level) :
    (p.atLevel l).expr line = p.expr line := by
  cases l <;> rfl

/- A phrase of any level as one of the weakest level. -/
def atOr : {l : Level} → Phrase l → Phrase .or
  | .or, p => p
  | .and, p => .lone (by decide) p
  | .not, p =>
      .lone (by decide) (.lone (l := .and) (by decide) p)
  | .comparison, p =>
      .lone (by decide) (.lone (l := .and) (by decide)
        (.lone (l := .not) (by decide) p))
  | .sum, p =>
      .lone (by decide) (.lone (l := .and) (by decide)
        (.lone (l := .not) (by decide)
          (.lone (l := .comparison) (by decide) p)))
  | .product, p =>
      .lone (by decide) (.lone (l := .and) (by decide)
        (.lone (l := .not) (by decide)
          (.lone (l := .comparison) (by decide)
            (.lone (l := .sum) (by decide) p))))
  | .negation, p =>
      .lone (by decide) (.lone (l := .and) (by decide)
        (.lone (l := .not) (by decide)
          (.lone (l := .comparison) (by decide)
            (.lone (l := .sum) (by decide)
              (.lone (l := .product) (by decide) p)))))
  | .primary, p => p.atLevel .or

@[simp] theorem tokens_atOr
    (p : Phrase l) :
    p.atOr.tokens = p.tokens := by
  cases l <;> rfl

@[simp] theorem expr_atOr
    (line : Nat)
    (p : Phrase l) :
    p.atOr.expr line = p.expr line := by
  cases l <;> rfl

/- A reference is no operator. -/
theorem not_negates_of_reference
    {s : String}
    (hName : isReference s = true) :
    ¬ Negates (.name s) := by
  intro hNegates
  cases hNegates with
  | notWord hWord => simp [isReference, hWord] at hName

/- A truth value is no operator. -/
theorem not_negates_of_truth
    {s : String}
    (hTruth : isTruth s = true) :
    ¬ Negates (.name s) := by
  intro hNegates
  cases hNegates with
  | notWord hWord => simp [isTruth, hWord] at hTruth

/-
  A phrase has a first token, and it tells the phrases that
  begin with an operator from the others.
-/
theorem tokens_head
    (p : Phrase l) :
    ∃ t ts, p.tokens = t :: ts ∧
      (Level.not.rank < l.rank → ¬ Negates t) ∧
      (Level.negation.rank < l.rank →
        t ≠ .symbol .minus) := by
  induction p with
  | lone hWeak p ih =>
      rcases ih with ⟨t, ts, hTokens, hNot, hMinus⟩
      rw [Level.rank_next hWeak] at hNot hMinus
      refine ⟨t, ts, hTokens, ?_, ?_⟩
      · intro hRank
        exact hNot (Nat.lt_succ_of_lt hRank)
      · intro hRank
        exact hMinus (Nat.lt_succ_of_lt hRank)
  | join hChain t op hJoins left right ihLeft _ =>
      rcases ihLeft with ⟨t', ts, hTokens, hFirst⟩
      refine ⟨t', ts ++ t :: right.tokens, ?_, hFirst⟩
      rw [tokens, hTokens, List.cons_append]
  | compare t op hJoins left right ihLeft _ =>
      rcases ihLeft with ⟨t', ts, hTokens, hNot, hMinus⟩
      refine ⟨t', ts ++ t :: right.tokens, ?_, ?_, ?_⟩
      · rw [tokens, hTokens, List.cons_append]
      · intro _
        exact hNot (by decide)
      · intro hRank
        exact absurd hRank (by decide)
  | not t hNegates p _ =>
      refine ⟨t, p.tokens, rfl, ?_, ?_⟩
      · intro hRank
        exact absurd hRank (by decide)
      · intro hRank
        exact absurd hRank (by decide)
  | negate p _ =>
      refine ⟨.symbol .minus, p.tokens, rfl, ?_, ?_⟩
      · rintro _ ⟨⟩
      · intro hRank
        exact absurd hRank (by decide)
  | number s =>
      refine ⟨.number s, [], rfl, ?_, ?_⟩
      · rintro _ ⟨⟩
      · rintro _ ⟨⟩
  | quoted s =>
      refine ⟨.quoted s, [], rfl, ?_, ?_⟩
      · rintro _ ⟨⟩
      · rintro _ ⟨⟩
  | truth s hTruth =>
      refine ⟨.name s, [], rfl, ?_, ?_⟩
      · exact fun _ => not_negates_of_truth hTruth
      · rintro _ ⟨⟩
  | target s =>
      refine ⟨.arrow, [.name s], rfl, ?_, ?_⟩
      · rintro _ ⟨⟩
      · rintro _ ⟨⟩
  | name s hName =>
      refine ⟨.name s, [], rfl, ?_, ?_⟩
      · exact fun _ => not_negates_of_reference hName
      · rintro _ ⟨⟩
  | parens p _ =>
      refine ⟨.symbol .openParen, _, rfl, ?_, ?_⟩
      · rintro _ ⟨⟩
      · rintro _ ⟨⟩

/- What follows a phrase does not change its first token. -/
theorem head_of_append
    {p : Phrase l}
    {t : Token}
    {ts us : List Token}
    (hTokens : p.tokens ++ us = t :: ts) :
    ∃ ts', p.tokens = t :: ts' := by
  rcases p.tokens_head with ⟨t', ts', hHead, _⟩
  rw [hHead, List.cons_append] at hTokens
  rw [(List.cons.inj hTokens).1] at hHead
  exact ⟨ts', hHead⟩

/- No phrase begins with an operator between operands. -/
theorem head_of_joins
    (p : Phrase l)
    {l' : Level}
    {t : Token}
    {ts : List Token}
    {op : BinaryOp}
    (hTokens : p.tokens = t :: ts)
    (hJoins : Joins l' t op) :
    t = .symbol .minus := by
  induction p generalizing ts with
  | lone hWeak p ih => exact ih hTokens
  | join hChain t' op' hJoins' left right ih _ =>
      rcases head_of_append hTokens with ⟨ts', hHead⟩
      exact ih hHead
  | compare t' op' hJoins' left right ih _ =>
      rcases head_of_append hTokens with ⟨ts', hHead⟩
      exact ih hHead
  | not t' hNegates p _ =>
      cases hTokens
      exact absurd hNegates hJoins.not_negates
  | negate p _ => exact (List.cons.inj hTokens).1.symm
  | truth s hTruth =>
      cases hTokens
      cases hJoins <;> simp_all [isTruth]
  | name s hName =>
      cases hTokens
      cases hJoins <;> simp_all [isReference]
  | _ =>
      cases hTokens
      cases hJoins

end Phrase

end BranchingStory

------------------------------------------------------------
-- Where Phrases Stop
------------------------------------------------------------

namespace BranchingStory

/-
  Whether a phrase of a level stops in front of some tokens:
  no operator of the level, or a stronger one, comes next.
-/
def Stops
    (l : Level)
    (ts : List Token) : Prop :=
  ∀ t ts' l' op, ts = t :: ts' → Joins l' t op →
    l'.rank < l.rank

namespace Stops

variable {l l' : Level}
variable {t : Token}
variable {ts : List Token}
variable {op : BinaryOp}

/- Phrases stop where there are no more tokens. -/
theorem nil :
    Stops l [] := by
  intro t ts' l' op hCons
  cases hCons

/- Phrases of stronger levels stop where weaker ones do. -/
theorem mono
    (hStops : Stops l ts)
    (hRank : l.rank ≤ l'.rank) :
    Stops l' ts := by
  intro t ts' l'' op hCons hJoins
  exact Nat.lt_of_lt_of_le (hStops t ts' l'' op hCons hJoins)
    hRank

/- Stronger phrases stop in front of weaker operators. -/
theorem cons
    (hJoins : Joins l t op)
    (hRank : l.rank < l'.rank) :
    Stops l' (t :: ts) := by
  intro t' ts' l'' op' hCons hJoins'
  cases hCons
  rw [(hJoins'.unique hJoins).1]
  exact hRank

/- Phrases stop in front of what joins nothing. -/
theorem cons_of_not_joins
    (hNone : ∀ l' op, ¬ Joins l' t op) :
    Stops l (t :: ts) := by
  intro t' ts' l' op' hCons hJoins
  cases hCons
  exact absurd hJoins (hNone l' op')

/- No operator of the level comes where a phrase stops. -/
theorem not_joins
    (hStops : Stops l (t :: ts)) :
    ¬ Joins l t op := by
  intro hJoins
  exact Nat.lt_irrefl _ (hStops t ts l op rfl hJoins)

end Stops

/- Parentheses that close join nothing. -/
theorem stops_closeParen
    (l : Level)
    (ts : List Token) :
    Stops l (.symbol .closeParen :: ts) := by
  apply Stops.cons_of_not_joins
  rintro l' op ⟨⟩

end BranchingStory

------------------------------------------------------------
-- Chains
------------------------------------------------------------

namespace BranchingStory

/- An operator of a level and the operand to its right. -/
structure Link
    (l : Level) where
  token : Token
  op : BinaryOp
  joins : Joins l token op
  operand : Phrase l.next

/- The tokens of a row of operators and operands. -/
def linkTokens
    {l : Level} : List (Link l) → List Token
  | [] => []
  | k :: ks => k.token :: (k.operand.tokens ++ linkTokens ks)

/- The first operand of a chain, and what it is joined to. -/
inductive Unrolls {l : Level} :
    Phrase l → Phrase l.next → List (Link l) → Prop where
  | lone (hWeak : l ≠ .primary) (p : Phrase l.next) :
      Unrolls (.lone hWeak p) p []
  | join {left : Phrase l} {first : Phrase l.next}
      {ks : List (Link l)} (hChain : l.isChain = true)
      (k : Link l) (hLeft : Unrolls left first ks) :
      Unrolls (.join hChain k.token k.op k.joins left k.operand)
        first (ks ++ [k])

namespace Unrolls

variable {l : Level}
variable {p q : Phrase l}
variable {first : Phrase l.next}
variable {ks : List (Link l)}

@[simp] theorem linkTokens_append
    (ks ks' : List (Link l)) :
    linkTokens (ks ++ ks') =
      linkTokens ks ++ linkTokens ks' := by
  induction ks with
  | nil => rfl
  | cons k ks ih => simp [linkTokens, ih]

/- A chain has the tokens of its parts. -/
theorem tokens
    (hUnrolls : Unrolls p first ks) :
    p.tokens = first.tokens ++ linkTokens ks := by
  induction hUnrolls with
  | lone hWeak p => simp [Phrase.tokens, linkTokens]
  | join hChain k _ ih =>
      simp [Phrase.tokens, linkTokens, ih]

/- A chain is determined by its parts. -/
theorem unique
    (hUnrolls : Unrolls p first ks)
    (hUnrolls' : Unrolls q first ks) :
    p = q := by
  induction hUnrolls generalizing q with
  | lone hWeak p =>
      generalize hNil : ([] : List (Link l)) = ks' at hUnrolls'
      cases hUnrolls' with
      | lone hWeak' p => rfl
      | join hChain k hLeft => simp at hNil
  | join hChain k hLeft ih =>
      rename_i left first ks
      generalize hSnoc : ks ++ [k] = ks' at hUnrolls'
      cases hUnrolls' with
      | lone hWeak' p => simp at hSnoc
      | join hChain' k' hLeft' =>
          rcases List.append_inj' hSnoc rfl with ⟨rfl, hLast⟩
          cases hLast
          rw [ih hLeft']

end Unrolls

/- Every phrase of a level of chains is a chain. -/
theorem Phrase.unrolls
    {l : Level}
    (hChain : l.isChain = true)
    (p : Phrase l) :
    ∃ first ks, Unrolls p first ks := by
  induction p with
  | lone hWeak p _ => exact ⟨p, [], .lone hWeak p⟩
  | join hChain' t op hJoins left right ih _ =>
      rcases ih hChain with ⟨first, ks, hLeft⟩
      exact ⟨first, _,
        .join hChain' ⟨t, op, hJoins, right⟩ hLeft⟩
  | _ => cases hChain

end BranchingStory

------------------------------------------------------------
-- Unique Derivations
------------------------------------------------------------

namespace BranchingStory

/-
  Whether no other phrase of the level derives the same tokens
  in front of tokens where it stops.
-/
def Phrase.IsDetermined
    {l : Level}
    (p : Phrase l) : Prop :=
  ∀ q rest rest', Stops l rest → Stops l rest' →
    p.tokens ++ rest = q.tokens ++ rest' →
      p = q ∧ rest = rest'

namespace Unrolls

variable {l : Level}
variable {p : Phrase l}
variable {first : Phrase l.next}
variable {ks : List (Link l)}

/- An operand stops in front of the operators of its chain. -/
theorem stops_linkTokens
    {rest : List Token}
    (hWeak : l ≠ .primary)
    (ks : List (Link l))
    (hStops : Stops l rest) :
    Stops l.next (linkTokens ks ++ rest) := by
  have hRank := Level.rank_next hWeak
  cases ks with
  | nil => exact hStops.mono (by omega)
  | cons k ks => exact Stops.cons k.joins (by omega)

/- A row of operators and operands is determined. -/
theorem links_determined
    {rest rest' : List Token}
    {ks' : List (Link l)}
    (hWeak : l ≠ .primary)
    (hOperands : ∀ k ∈ ks, k.operand.IsDetermined)
    (hStops : Stops l rest)
    (hStops' : Stops l rest')
    (hSame : linkTokens ks ++ rest = linkTokens ks' ++ rest') :
    ks = ks' ∧ rest = rest' := by
  induction ks generalizing ks' with
  | nil =>
      cases ks' with
      | nil => exact ⟨rfl, hSame⟩
      | cons k' ks' =>
          rw [linkTokens, List.nil_append] at hSame
          rw [hSame] at hStops
          exact absurd k'.joins hStops.not_joins
  | cons k ks ih =>
      cases ks' with
      | nil =>
          rw [linkTokens, linkTokens, List.nil_append] at hSame
          rw [← hSame] at hStops'
          exact absurd k.joins hStops'.not_joins
      | cons k' ks' =>
          rcases k with ⟨t, op, hJoins, operand⟩
          rcases k' with ⟨t', op', hJoins', operand'⟩
          rw [List.forall_mem_cons] at hOperands
          simp only [linkTokens, List.cons_append,
            List.append_assoc, List.cons.injEq] at hSame
          rcases hSame with ⟨rfl, hTokens⟩
          rcases hJoins.unique hJoins' with ⟨_, rfl⟩
          rcases hOperands.1 operand' _ _
              (stops_linkTokens hWeak ks hStops)
              (stops_linkTokens hWeak ks' hStops') hTokens with
            ⟨rfl, hRest⟩
          rcases ih hOperands.2 hRest with ⟨rfl, rfl⟩
          exact ⟨rfl, rfl⟩

/- A chain is determined if its operands are. -/
theorem isDetermined
    (hUnrolls : Unrolls p first ks)
    (hChain : l.isChain = true)
    (hFirst : first.IsDetermined)
    (hOperands : ∀ k ∈ ks, k.operand.IsDetermined) :
    p.IsDetermined := by
  intro q rest rest' hStops hStops' hSame
  have hWeak : l ≠ .primary := by
    rintro rfl
    cases hChain
  rcases q.unrolls hChain with ⟨first', ks', hUnrolls'⟩
  rw [hUnrolls.tokens, hUnrolls'.tokens, List.append_assoc,
    List.append_assoc] at hSame
  rcases hFirst first' _ _
      (stops_linkTokens hWeak ks hStops)
      (stops_linkTokens hWeak ks' hStops') hSame with
    ⟨rfl, hRest⟩
  rcases links_determined hWeak hOperands hStops hStops'
      hRest with
    ⟨rfl, rfl⟩
  exact ⟨hUnrolls.unique hUnrolls', rfl⟩

end Unrolls

namespace Phrase

variable {l : Level}

/- A phrase without an operator of its level. -/
theorem lone_isDetermined
    (hWeak : l ≠ .primary)
    (hChain : l.isChain = false)
    {p : Phrase l.next}
    (hDetermined : p.IsDetermined) :
    (lone hWeak p).IsDetermined := by
  intro q rest rest' hStops hStops' hSame
  have hRank := Level.rank_next hWeak
  have hNext {ts : List Token} (hStops : Stops l ts) :
      Stops l.next ts := hStops.mono (by omega)
  rcases p.tokens_head with ⟨t, ts, hTokens, hNot, hMinus⟩
  have hFirst := hSame
  rw [tokens, hTokens, List.cons_append] at hFirst
  cases q with
  | lone hWeak' q =>
      rcases hDetermined q rest rest' (hNext hStops)
          (hNext hStops') hSame with
        ⟨rfl, rfl⟩
      exact ⟨rfl, rfl⟩
  | join hChain' t op hJoins left right =>
      rw [hChain] at hChain'
      cases hChain'
  | compare t' op hJoins left right =>
      rw [tokens, tokens, List.append_assoc] at hSame
      rcases hDetermined left rest _ (hNext hStops)
          (Stops.cons hJoins (by decide)) hSame with
        ⟨_, rfl⟩
      exact absurd hJoins hStops.not_joins
  | not t' hNegates q =>
      rw [tokens, List.cons_append] at hFirst
      rw [(List.cons.inj hFirst).1] at hNot
      exact absurd hNegates (hNot (by decide))
  | negate q =>
      rw [tokens, List.cons_append] at hFirst
      exact absurd (List.cons.inj hFirst).1
        (hMinus (by decide))
  | _ => exact absurd rfl hWeak

/- A comparison of determined phrases. -/
theorem compare_isDetermined
    {t : Token}
    {op : BinaryOp}
    (hJoins : Joins .comparison t op)
    {left right : Phrase .sum}
    (hLeft : left.IsDetermined)
    (hRight : right.IsDetermined) :
    (compare t op hJoins left right).IsDetermined := by
  intro q rest rest' hStops hStops' hSame
  have hNext {ts : List Token}
      (hStops : Stops .comparison ts) : Stops .sum ts :=
    hStops.mono (by decide)
  rw [tokens, List.append_assoc] at hSame
  cases q with
  | lone hWeak q =>
      rcases hLeft q _ rest' (Stops.cons hJoins (by decide))
          (hNext hStops') hSame with
        ⟨_, rfl⟩
      exact absurd hJoins hStops'.not_joins
  | join hChain t op hJoins left right => cases hChain
  | compare t' op' hJoins' left' right' =>
      rw [tokens, List.append_assoc] at hSame
      rcases hLeft left' _ _ (Stops.cons hJoins (by decide))
          (Stops.cons hJoins' (by decide)) hSame with
        ⟨rfl, hRest⟩
      rcases List.cons.inj hRest with ⟨rfl, hTokens⟩
      rcases hJoins.unique hJoins' with ⟨_, rfl⟩
      rcases hRight right' _ _ (hNext hStops) (hNext hStops')
          hTokens with
        ⟨rfl, rfl⟩
      exact ⟨rfl, rfl⟩

/- A negated phrase. -/
theorem not_isDetermined
    {t : Token}
    (hNegates : Negates t)
    {p : Phrase .not}
    (hDetermined : p.IsDetermined) :
    (not t hNegates p).IsDetermined := by
  intro q rest rest' hStops hStops' hSame
  cases q with
  | lone hWeak q =>
      rcases q.tokens_head with ⟨t', ts, hTokens, hNot, _⟩
      rw [tokens, tokens, hTokens] at hSame
      rw [← (List.cons.inj hSame).1] at hNot
      exact absurd hNegates (hNot (by decide))
  | join hChain t op hJoins left right => cases hChain
  | not t' hNegates' q =>
      rcases List.cons.inj hSame with ⟨rfl, hRest⟩
      rcases hDetermined q rest rest' hStops hStops' hRest with
        ⟨rfl, rfl⟩
      exact ⟨rfl, rfl⟩

/- A phrase after a negative sign. -/
theorem negate_isDetermined
    {p : Phrase .negation}
    (hDetermined : p.IsDetermined) :
    (negate p).IsDetermined := by
  intro q rest rest' hStops hStops' hSame
  cases q with
  | lone hWeak q =>
      rcases q.tokens_head with ⟨t', ts, hTokens, _, hMinus⟩
      rw [tokens, tokens, hTokens] at hSame
      exact absurd (List.cons.inj hSame).1.symm
        (hMinus (by decide))
  | join hChain t op hJoins left right => cases hChain
  | negate q =>
      rcases hDetermined q rest rest' hStops hStops'
          (List.cons.inj hSame).2 with
        ⟨rfl, rfl⟩
      exact ⟨rfl, rfl⟩

/- A truth value is no reference. -/
theorem not_isReference
    {s : String}
    (hTruth : isTruth s = true) :
    isReference s = false := by
  simp only [isTruth, List.mem_cons, List.not_mem_nil,
    or_false, decide_eq_true_eq] at hTruth
  rcases hTruth with hWord | hWord
  · simp [isReference, hWord]
  · simp [isReference, hWord]

/- A primary phrase of one or two tokens. -/
theorem atom_isDetermined
    {p : Phrase .primary}
    (hAtom : ∀ q, p ≠ parens q) :
    p.IsDetermined := by
  intro q rest rest' _ _ hSame
  cases p with
  | lone hWeak p => exact absurd rfl hWeak
  | join hChain => cases hChain
  | parens p => exact absurd rfl (hAtom p)
  | _ =>
      cases q with
      | lone hWeak q => exact absurd rfl hWeak
      | join hChain => cases hChain
      | _ =>
          first
          | (cases hSame; exact ⟨rfl, rfl⟩)
          | (cases hSame; done)
          | -- A truth value and a reference of the same name.
            cases hSame
            have hNone := not_isReference ‹isTruth _ = true›
            rw [‹isReference _ = true›] at hNone
            cases hNone

/- A primary phrase of parentheses. -/
theorem parens_isDetermined
    {p : Phrase .or}
    (hDetermined : p.IsDetermined) :
    (parens p).IsDetermined := by
  intro q rest rest' _ _ hSame
  cases q with
  | lone hWeak q => exact absurd rfl hWeak
  | join hChain t op hJoins left right => cases hChain
  | parens q =>
      simp only [tokens, List.cons_append, List.append_assoc]
        at hSame
      have hTokens := (List.cons.inj hSame).2
      rcases hDetermined q _ _ (stops_closeParen _ _)
          (stops_closeParen _ _) hTokens with
        ⟨rfl, hRest⟩
      exact ⟨rfl, (List.cons.inj hRest).2⟩
  | _ => cases (List.cons.inj hSame).1

/- No other phrase derives the tokens of a phrase. -/
theorem isDetermined
    (p : Phrase l) :
    p.IsDetermined := by
  -- The operands of a chain are within it, however long it is.
  suffices hBoth :
      p.IsDetermined ∧
        ∀ first ks, Unrolls p first ks →
          first.IsDetermined ∧
            ∀ k ∈ ks, k.operand.IsDetermined from hBoth.1
  induction p with
  | lone hWeak p ih =>
      rename_i l
      by_cases hChain : l.isChain = true
      · refine ⟨(Unrolls.lone hWeak p).isDetermined hChain ih.1
          (by simp), ?_⟩
        rintro first ks ⟨⟩
        exact ⟨ih.1, by simp⟩
      · rw [Bool.not_eq_true] at hChain
        refine ⟨lone_isDetermined hWeak hChain ih.1, ?_⟩
        rintro first ks ⟨⟩
        exact ⟨ih.1, by simp⟩
  | join hChain t op hJoins left right ihLeft ihRight =>
      rename_i l
      have hParts :
          ∀ first ks,
            Unrolls (.join hChain t op hJoins left right)
                first ks →
              first.IsDetermined ∧
                ∀ k ∈ ks, k.operand.IsDetermined := by
        intro first ks hUnrolls
        cases hUnrolls with
        | @join _ _ ks _ k hLeft =>
            rcases ihLeft.2 first ks hLeft with ⟨hFirst, hKs⟩
            refine ⟨hFirst, ?_⟩
            rw [List.forall_mem_append,
              List.forall_mem_singleton]
            exact ⟨hKs, ihRight.1⟩
      rcases left.unrolls hChain with ⟨first, ks, hLeft⟩
      have hAll :=
        Unrolls.join hChain ⟨t, op, hJoins, right⟩ hLeft
      rcases hParts first _ hAll with ⟨hFirst, hKs⟩
      exact ⟨hAll.isDetermined hChain hFirst hKs, hParts⟩
  | compare t op hJoins left right ihLeft ihRight =>
      refine ⟨compare_isDetermined hJoins ihLeft.1 ihRight.1,
        ?_⟩
      rintro first ks ⟨⟩
  | not t hNegates p ih =>
      refine ⟨not_isDetermined hNegates ih.1, ?_⟩
      rintro first ks ⟨⟩
  | negate p ih =>
      refine ⟨negate_isDetermined ih.1, ?_⟩
      rintro first ks ⟨⟩
  | parens p ih =>
      refine ⟨parens_isDetermined ih.1, ?_⟩
      rintro first ks ⟨⟩
  | _ =>
      refine ⟨atom_isDetermined (by simp), ?_⟩
      rintro first ks ⟨⟩

/- No two phrases derive the same tokens. -/
theorem tokens_injective :
    Function.Injective (tokens : Phrase l → List Token) := by
  intro p q hSame
  have hBoth :=
    p.isDetermined q [] [] Stops.nil Stops.nil (by rw [hSame])
  exact hBoth.1

end Phrase

end BranchingStory

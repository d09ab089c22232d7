import LineCalc.Tree

/-! The grammar of expressions in layers, from the operators that bind loosest to the atoms.
It knows operators by their spelling and their layer; nothing here is a number that is
compared. The strength of a layer is what precedence climbing sees of it. -/
namespace LineCalc

inductive Phrase where
  | bits | equality | order | sum | product | signed | suffixed | atom
  deriving DecidableEq, Repr

namespace Phrase

/-- The layer of the right operands, which is also contained in the layer itself. -/
def tighter : Phrase → Option Phrase
  | bits => some equality
  | equality => some order
  | order => some sum
  | sum => some product
  | product => some signed
  | signed => some suffixed
  | suffixed => some atom
  | atom => none

def infixOps : Phrase → List (String × InfixOp)
  | bits => [("&", .bitAnd), ("|", .bitOr)]
  | equality => [("=", .equal), ("~", .notEqual)]
  | order => [("<", .less), (">", .greater)]
  | sum => [("+", .add), ("-", .subtract)]
  | product => [("*", .multiply), ("/", .divide), ("%", .modulo)]
  | signed | suffixed | atom => []

def prefixOps : List (String × PrefixOp) :=
  [("+", .plus), ("-", .negative), ("!", .logicNot), ("~", .bitwiseNot)]

def postfixOps : List (String × PostfixOp) := [("!", .factorial)]

end Phrase

/-- A phrase spelled by the tokens, with its tree. Parentheses build no node. -/
inductive Derives : Phrase → List Token → Tree → Prop where
  | tighter (next : p.tighter = some q) (phrase : Derives q ts t) : Derives p ts t
  | infixed (mem : (s, op) ∈ p.infixOps) (next : p.tighter = some q) (left : Derives p ts l)
      (right : Derives q us r) : Derives p (ts ++ .operator s :: us) (.infixed l op r)
  | prefixed (mem : (s, op) ∈ Phrase.prefixOps) (operand : Derives .signed ts t) :
      Derives .signed (.operator s :: ts) (.prefixed op t)
  | postfixed (mem : (s, op) ∈ Phrase.postfixOps) (operand : Derives .suffixed ts t) :
      Derives .suffixed (ts ++ [.operator s]) (.postfixed t op)
  | number (n : Int) : Derives .atom [.number n] (.number n)
  | group (content : Derives .bits ts t) : Derives .atom (.leftParen :: ts ++ [.rightParen]) t

namespace Phrase

def strength : Phrase → Int
  | bits => 3
  | equality => 4
  | order => 5
  | sum => 6
  | product => 7
  | signed => 10
  | suffixed => 11
  | atom => 12

def ofInfixOp : InfixOp → Phrase
  | .bitAnd | .bitOr => bits
  | .equal | .notEqual => equality
  | .less | .greater => order
  | .add | .subtract => sum
  | .multiply | .divide | .modulo => product

theorem strength_ofInfixOp (op : InfixOp) : (ofInfixOp op).strength = op.precedence := by
  cases op <;> rfl

theorem mem_infixOps_ofInfixOp (op : InfixOp) : (op.symbol, op) ∈ (ofInfixOp op).infixOps := by
  cases op <;> simp [ofInfixOp, infixOps, InfixOp.symbol]

theorem of_mem_infixOps {p : Phrase} {s : String} {op : InfixOp} (h : (s, op) ∈ p.infixOps) :
    s = op.symbol ∧ op.precedence = p.strength := by
  cases p <;> simp only [infixOps, List.mem_cons, List.not_mem_nil, Prod.mk.injEq, or_false] at h
  case product => rcases h with ⟨rfl, rfl⟩ | ⟨rfl, rfl⟩ | ⟨rfl, rfl⟩ <;> exact ⟨rfl, rfl⟩
  all_goals rcases h with ⟨rfl, rfl⟩ | ⟨rfl, rfl⟩ <;> exact ⟨rfl, rfl⟩

theorem ofToken_of_mem_infixOps {p : Phrase} {s : String} {op : InfixOp}
    (h : (s, op) ∈ p.infixOps) : InfixOp.ofToken (.operator s) = some op := by
  rw [(of_mem_infixOps h).1]
  exact InfixOp.ofSymbol_symbol op

theorem mem_prefixOps (op : PrefixOp) : (op.symbol, op) ∈ prefixOps := by
  cases op <;> simp [prefixOps, PrefixOp.symbol]

theorem ofToken_of_mem_prefixOps {s : String} {op : PrefixOp} (h : (s, op) ∈ prefixOps) :
    PrefixOp.ofToken (.operator s) = some op := by
  simp only [prefixOps, List.mem_cons, List.not_mem_nil, Prod.mk.injEq, or_false] at h
  rcases h with ⟨rfl, rfl⟩ | ⟨rfl, rfl⟩ | ⟨rfl, rfl⟩ | ⟨rfl, rfl⟩ <;> rfl

theorem mem_postfixOps (op : PostfixOp) : (op.symbol, op) ∈ postfixOps := by
  cases op
  exact List.mem_singleton.2 rfl

theorem ofToken_of_mem_postfixOps {s : String} {op : PostfixOp} (h : (s, op) ∈ postfixOps) :
    PostfixOp.ofToken (.operator s) = some op := by
  obtain ⟨rfl, rfl⟩ := Prod.mk.inj (List.mem_singleton.1 h)
  rfl

theorem strength_lt_of_tighter {p q : Phrase} (h : p.tighter = some q) :
    p.strength < q.strength := by
  cases p <;> cases h <;> decide

theorem exists_tighter {p q : Phrase} (h : p.strength < q.strength) :
    ∃ r, p.tighter = some r ∧ r.strength ≤ q.strength := by
  cases p
  case atom => cases q <;> simp [strength] at h
  all_goals refine ⟨_, rfl, ?_⟩
  all_goals cases q <;> simp [strength] at h ⊢

theorem eq_of_strength_eq {p q : Phrase} (h : p.strength = q.strength) : p = q := by
  cases p <;> cases q <;> simp [strength] at h ⊢

end Phrase

theorem Derives.loosen {p q : Phrase} (h : Derives p ts t) (le : q.strength ≤ p.strength) :
    Derives q ts t := by
  by_cases same : q = p
  · exact same ▸ h
  · have lt : q.strength < p.strength :=
      Int.lt_iff_le_and_ne.2 ⟨le, fun e => same (Phrase.eq_of_strength_eq e)⟩
    obtain ⟨r, next, le⟩ := Phrase.exists_tighter lt
    have := Phrase.strength_lt_of_tighter next
    exact .tighter next (h.loosen le)
termination_by (p.strength - q.strength).toNat

end LineCalc

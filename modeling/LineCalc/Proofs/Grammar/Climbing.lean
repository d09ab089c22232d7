import LineCalc.Proofs.Grammar
import LineCalc.Proofs.Parser.Limit

/-! Precedence climbing reads exactly the layered grammar. What carries both directions is
which operators a reader leaves: those below its minimum, which are for the readers that
called it, and none that a tighter layer could have taken. -/
namespace LineCalc

namespace Parser

theorem stops_of_eleven_lt {minimum : Int} (h : 11 < minimum) (t : Token) :
    Stops minimum t where
  ofInfix op _ := by have := precedence_le_seven op; omega
  ofPostfix _ _ := h

theorem Stops.across_signs {t : Token} (h : Stops 11 t) : Stops 8 t where
  ofInfix op _ := by have := precedence_le_seven op; omega
  ofPostfix op role := absurd (h.ofPostfix op role) (Int.lt_irrefl 11)

end Parser

open LineCalc.Parser

theorem Derives.rightMinimum_le {p q : Phrase} {op : InfixOp} (mem : (s, op) ∈ p.infixOps)
    (next : p.tighter = some q) : op.rightMinimum ≤ q.strength := by
  have lt := Phrase.strength_lt_of_tighter next
  rw [InfixOp.rightMinimum_eq, (Phrase.of_mem_infixOps mem).2]
  omega

/-- A phrase is read as its tree wherever what follows cannot belong to its last operand.
The reader then goes on with what follows as if it had stood behind a number. -/
theorem Derives.expression_append (h : Derives p ts t) :
    ∀ minimum rest, minimum ≤ p.strength → Stops (p.strength + 1) (.front rest) →
      expression .unlimited minimum (ts ++ rest) = operators .unlimited minimum t rest := by
  induction h with
  | tighter next _ ih =>
    intro minimum rest le stops
    have lt := Phrase.strength_lt_of_tighter next
    exact ih minimum rest (by omega) (stops.mono (by omega))
  | @infixed s op q p ts l us r mem next _ _ ihl ihr =>
    intro minimum rest le stops
    have role := Phrase.ofToken_of_mem_infixOps mem
    have precedence := (Phrase.of_mem_infixOps mem).2
    have lt := Phrase.strength_lt_of_tighter next
    have right : expression .unlimited op.rightMinimum (us ++ rest) = .ok (r, rest) := by
      rw [ihr op.rightMinimum rest (rightMinimum_le mem next) (stops.mono (by omega))]
      refine operators_stop (stops.mono ?_)
      rw [InfixOp.rightMinimum_eq]
      omega
    have left : Stops (p.strength + 1) (.operator s) := stops_of_infixOp role (by omega)
    rw [List.append_assoc, List.cons_append, ihl minimum (.operator s :: (us ++ rest)) le left,
      operators_infixed role (by omega), right]
    rfl
  | @prefixed s op ts t mem _ ih =>
    intro minimum rest _ stops
    have ten : Stops op.precedence (.front rest) :=
      stops.across_signs.mono (by show (8 : Int) ≤ 10; decide)
    have inner : expression .unlimited op.precedence (ts ++ rest) = .ok (t, rest) := by
      rw [ih op.precedence rest (Int.le_refl _) stops]
      exact operators_stop ten
    rw [List.cons_append, expression_enter rfl,
      operand_prefixed (Phrase.ofToken_of_mem_prefixOps mem), inner]
    rfl
  | @postfixed s op ts t mem _ ih =>
    intro minimum rest le stops
    have role := Phrase.ofToken_of_mem_postfixOps mem
    have left : Stops 12 (.operator s) := stops_of_postfixOp role (Int.lt_succ 11)
    rw [List.append_assoc, List.singleton_append, ih minimum (.operator s :: rest) le left,
      operators_postfixed role le]
  | number n =>
    intro minimum rest _ _
    rw [List.singleton_append, expression_enter rfl, operand_plain rfl, atom_number rfl]
    rfl
  | @group ts t _ ih =>
    intro minimum rest _ _
    have content : expression .unlimited 0 (ts ++ .rightParen :: rest) =
        .ok (t, .rightParen :: rest) := by
      rw [ih 0 _ (by decide) (stops_rightParen _)]
      exact operators_stop (stops_rightParen _)
    rw [List.cons_append, List.cons_append, List.append_assoc, List.singleton_append,
      expression_enter rfl, operand_plain rfl, atom_group rfl, content]
    rfl

theorem Derives.whole_eq (h : Derives .bits ts t) : whole .unlimited ts = .ok (t, []) := by
  have read := h.expression_append 0 [] (by decide) (stops_endOfInput _)
  rw [List.append_nil, operators_stop (stops_endOfInput 0)] at read
  rw [whole, read]

theorem Derives.unique (h : Derives .bits ts t) (h' : Derives .bits ts t') : t = t' := by
  have same := h.whole_eq.symm.trans h'.whole_eq
  cases same
  rfl

namespace Parser

/-- What was taken of the tokens is a phrase. The operators extend what is already a phrase,
of a layer so tight that nothing in front of them belongs to its last operand. -/
def Reader.Sound (ts : List Token) (t : Tree) (rest : List Token) : Reader → Prop
  | expression minimum => minimum ≤ 10 →
      ∃ p taken, ts = taken ++ rest ∧ minimum ≤ p.strength ∧ Derives p taken t
  | operand => ∃ p taken, ts = taken ++ rest ∧ 10 ≤ p.strength ∧ Derives p taken t ∧
      Stops (p.strength + 1) (.front rest)
  | atom => ∃ taken, ts = taken ++ rest ∧ Derives .atom taken t
  | operators minimum left => ∀ p before, minimum ≤ p.strength → Derives p before left →
      Stops (p.strength + 1) (.front ts) →
        ∃ q taken, ts = taken ++ rest ∧ minimum ≤ q.strength ∧ Derives q (before ++ taken) t

theorem Reads.sound (h : Reads frames reader ts r) :
    ∀ t rest, r = .ok (t, rest) → reader.Sound ts t rest := by
  induction h with
  | @expression _ _ _ left _ minimum _ _ _ _ ih iht =>
    intro t rest hr le
    obtain ⟨p, taken, rfl, ten, phrase, stops⟩ := ih _ _ rfl
    obtain ⟨q, more, rfl, le, phrase⟩ := iht _ _ hr p taken (by omega) phrase stops
    exact ⟨q, taken ++ more, (List.append_assoc ..).symm, le, phrase⟩
  | @prefixed t op _ tail _ _ role operand ih =>
    intro tree rest hr
    cases hr
    obtain ⟨p, taken, rfl, le, phrase⟩ := ih _ _ rfl (Int.le_refl 10)
    rw [PrefixOp.ofToken_eq_some_iff] at role
    subst role
    have stops : Stops (Phrase.signed.strength + 1) (.front _) :=
      operand.stops.mono (Int.le_add_one (Int.le_refl 10))
    exact ⟨.signed, _ :: taken, rfl, Int.le_refl _,
      .prefixed (Phrase.mem_prefixOps op) (phrase.loosen le), stops⟩
  | plain _ _ ih =>
    intro t rest hr
    obtain ⟨taken, rfl, phrase⟩ := ih t rest hr
    exact ⟨.atom, taken, rfl, by decide, phrase, stops_of_eleven_lt (by decide) _⟩
  | @number _ _ n =>
    intro t rest hr
    cases hr
    exact ⟨[.number n], rfl, .number n⟩
  | group _ _ ih =>
    intro t rest hr
    cases hr
    obtain ⟨p, taken, rfl, le, phrase⟩ := ih _ _ rfl (by decide)
    refine ⟨.leftParen :: taken ++ [.rightParen], by simp, .group (phrase.loosen ?_)⟩
    cases p <;> decide
  | @infixed t op minimum _ tail right rest left _ role binds operand _ ih iht =>
    intro tree end_ hr p before le phrase stops
    have weak := stops.ofInfix op role
    have layer := Phrase.strength_ofInfixOp op
    have next := InfixOp.rightMinimum_eq op
    have := precedence_le_seven op
    obtain ⟨q, taken, rfl, tight, operandPhrase⟩ := ih _ _ rfl (by omega)
    obtain ⟨r, tighter, rle⟩ : ∃ r, (Phrase.ofInfixOp op).tighter = some r ∧
        r.strength ≤ q.strength := Phrase.exists_tighter (by omega)
    have whole : Derives (.ofInfixOp op) (before ++ t :: taken) (.infixed left op right) := by
      rw [InfixOp.ofToken_eq_some_iff] at role
      subst role
      exact .infixed (Phrase.mem_infixOps_ofInfixOp op) tighter (phrase.loosen (by omega))
        (operandPhrase.loosen rle)
    have stops : Stops ((Phrase.ofInfixOp op).strength + 1) (.front rest) :=
      operand.stops.mono (by omega)
    obtain ⟨q, more, rfl, le, phrase⟩ := iht _ _ hr _ _ (by omega) whole stops
    refine ⟨q, t :: taken ++ more, by simp, le, ?_⟩
    rwa [← List.append_assoc]
  | @postfixed t op minimum _ left tail _ role binds _ ih =>
    intro tree rest hr p before le phrase stops
    have weak : 11 < p.strength + 1 := stops.ofPostfix op role
    have suffixed : Derives .suffixed before left := phrase.loosen (by show (11 : Int) ≤ _; omega)
    rw [PostfixOp.ofToken_eq_some_iff] at role
    subst role
    obtain ⟨q, more, rfl, le, phrase⟩ := ih _ _ hr .suffixed _ binds
      (.postfixed (Phrase.mem_postfixOps op) suffixed) (stops_of_eleven_lt (by decide) _)
    refine ⟨q, _ :: more, rfl, le, ?_⟩
    rwa [List.append_assoc] at phrase
  | stop =>
    intro t rest hr p before le phrase _
    cases hr
    exact ⟨p, [], rfl, le, by rwa [List.append_nil]⟩
  | _ => exact nofun

theorem derives_of_expression {frames : Frames} {ts : List Token} {t : Tree}
    (h : expression frames 0 ts = .ok (t, [])) : Derives .bits ts t := by
  have rules : Reads frames (.expression 0) ts (.ok (t, [])) := h ▸ reads frames (.expression 0) ts
  obtain ⟨p, taken, rfl, le, phrase⟩ := rules.sound t [] rfl (by decide)
  rw [List.append_nil]
  refine phrase.loosen ?_
  cases p <;> decide

end Parser

theorem parseWithin_eq_ok_iff {frames : Frames} {text : String} {t : Tree} :
    parseWithin frames text = .ok t ↔ expression frames 0 (Token.ofText text) = .ok (t, []) := by
  rw [parseWithin, whole]
  cases expression frames 0 (Token.ofText text) with
  | error h => simp
  | ok r =>
    obtain ⟨tree, rest⟩ := r
    cases rest <;> simp

theorem derives_of_parseWithin {frames : Frames} {text : String} {t : Tree}
    (h : parseWithin frames text = .ok t) : Derives .bits (Token.ofText text) t :=
  derives_of_expression (parseWithin_eq_ok_iff.1 h)

theorem parseWithin_of_derives {frames : Frames} {text : String} {t : Tree}
    (fits : ¬NestsTooDeep frames text) (h : Derives .bits (Token.ofText text) t) :
    parseWithin frames text = .ok t := by
  rw [parseWithin, whole_eq_unlimited fits, h.whole_eq]

/-- Where the limit is not hit, a text is read as a tree exactly if the grammar derives the
tree from its tokens; and the grammar derives one tree at most from any tokens. -/
theorem parseWithin_eq_ok_iff_derives {frames : Frames} {text : String}
    (fits : ¬NestsTooDeep frames text) :
    (∀ t, parseWithin frames text = .ok t ↔ Derives .bits (Token.ofText text) t) ∧
      ∀ ts t t', Derives .bits ts t → Derives .bits ts t' → t = t' := by
  refine ⟨fun t => ⟨derives_of_parseWithin, parseWithin_of_derives fits⟩, ?_⟩
  intro ts t t' h h'
  exact h.unique h'

theorem derives_signed_product :
    ¬NestsTooDeep (.atMost 20) "-2!*(3~4)" ∧
      Derives .bits (Token.ofText "-2!*(3~4)")
        (.infixed (.prefixed .negative (.postfixed (.number 2) .factorial)) .multiply
          (.infixed (.number 3) .notEqual (.number 4))) := by
  have tokens : Token.ofText "-2!*(3~4)" = [.operator "-", .number 2, .operator "!", .operator "*",
      .leftParen, .number 3, .operator "~", .number 4, .rightParen] := by decide +kernel
  have read : parseWithin (.atMost 20) "-2!*(3~4)" =
      .ok (.infixed (.prefixed .negative (.postfixed (.number 2) .factorial)) .multiply
        (.infixed (.number 3) .notEqual (.number 4))) := by
    rw [parseWithin, tokens]
    cbv
  have fits := not_nestsTooDeep_of_ok read
  exact ⟨fits, ((parseWithin_eq_ok_iff_derives fits).1 _).1 read⟩

end LineCalc

import LineCalc.Proofs.TokenStream.Readers

/-! A stream under any use walks along the entries of its text. Whatever is done with it, and
whether it succeeds, the stream stands at an entry afterwards, never further back than before, and
what it answers is decided by the tokens from its entry on. -/
namespace LineCalc.TokenStream

open LineCalc.Parser (Frames)

def entries (text : String) : List (Token × Nat) := (ofText text).drain

def tokensFrom (T : List (Token × Nat)) (k : Nat) : List Token :=
  (T.drop k).dropLast.map Prod.fst

def ofReading : Parser.Reading → Except Fault Answer × List Token
  | .ok (t, rest) => (.ok (.tree t), rest)
  | .error h => (.error h.fault, h.rest)

/-- What an action comes to where these tokens lie ahead, and the tokens that it leaves. -/
def outcome (frames : Frames) : Action → List Token → Except Fault Answer × List Token
  | .current, ts => (.ok (.token (.front ts)), ts)
  | .advance, ts => (.ok .done, ts.tail)
  | .take, ts => (.ok (.token (.front ts)), ts.tail)
  | .consume wanted label, ts =>
    if Token.front ts = wanted then (.ok .done, ts.tail)
    else (.error (.expecting label (.front ts)), ts)
  | .expression minimum, ts => ofReading (Parser.expression frames minimum ts)
  | .atom, ts => ofReading (Parser.atom frames ts)
  | .whole, ts => ofReading (Parser.whole frames ts)

theorem settle_of_matches {s : TokenStream} {r : Reading} {q : Parser.Reading}
    (h : Matches s r q) :
    Follows s (settle r).2 ∧ ((settle r).1, (settle r).2.tokens) = ofReading q := by
  cases h with
  | ok follows rest =>
    subst rest
    exact ⟨follows, rfl⟩
  | @halted s' ts cause follows rest =>
    subst rest
    refine ⟨follows, ?_⟩
    cases cause with
    | fault f => rfl
    | tooDeep => simp only [settle, Halt.fault, ofReading, Parser.Halt.fault, front_tokens]

theorem perform_outcome (frames : Frames) {s : TokenStream} (settled : Settled s) (a : Action) :
    Follows s (s.perform frames a).2 ∧
      ((s.perform frames a).1, (s.perform frames a).2.tokens) = outcome frames a s.tokens := by
  cases a with
  | current =>
    refine ⟨.refl settled, ?_⟩
    rw [outcome, front_tokens]
    rfl
  | advance =>
    refine ⟨follows_advance settled, ?_⟩
    rw [outcome, ← tokens_advance settled]
    rfl
  | take =>
    refine ⟨follows_advance settled, ?_⟩
    rw [outcome, front_tokens, ← tokens_advance settled]
    rfl
  | consume wanted label =>
    rw [perform, outcome, front_tokens]
    by_cases found : s.current = wanted
    · rw [if_pos found, if_pos found, ← tokens_advance settled]
      exact ⟨follows_advance settled, rfl⟩
    · rw [if_neg found, if_neg found]
      exact ⟨.refl settled, rfl⟩
  | expression minimum => exact settle_of_matches (matches_expression frames minimum settled)
  | atom => exact settle_of_matches (matches_atom frames settled)
  | whole => exact settle_of_matches (matches_whole frames settled)

theorem drain_eq {s : TokenStream} (settled : Settled s) :
    s.drain = s.pending.map (fun l => (l.token, l.stop)) ++ [(.endOfInput, s.text.length)] := by
  fun_induction drain s with
  | case1 s done => rw [pending, if_pos done, done, settled.finished done]; rfl
  | case2 s more _ ih =>
    rw [ih (settled_advance settled.bounded), pending_cons more, text_advance]
    rfl

theorem settled_ofText (text : String) : Settled (ofText text) :=
  settled_advance (Nat.zero_le _)

theorem entries_eq (text : String) :
    entries text = (Lexeme.ofText text).map (fun l => (l.token, l.stop)) ++
      [(.endOfInput, text.length)] := by
  rw [entries, drain_eq (settled_ofText text), ofText, pending_advance, text_advance]
  rfl

theorem length_entries (text : String) :
    (entries text).length = (Lexeme.ofText text).length + 1 := by
  rw [entries_eq, List.length_append, List.length_map]
  rfl

/-- The stream is in the text, in front of all but the first `k` lexemes. -/
structure Stands (text : String) (k : Nat) (s : TokenStream) : Prop where
  same : s.text = text.toList
  settled : Settled s
  bounded : k ≤ (Lexeme.ofText text).length
  pending : s.pending = (Lexeme.ofText text).drop k

theorem stands_ofText (text : String) : Stands text 0 (ofText text) where
  same := text_advance _
  settled := settled_ofText text
  bounded := Nat.zero_le _
  pending := by rw [ofText, pending_advance]; rfl

theorem Stands.length_pending {text : String} {k : Nat} {s : TokenStream} (h : Stands text k s) :
    s.pending.length = (Lexeme.ofText text).length - k := by
  rw [h.pending, List.length_drop]

theorem Stands.entry {text : String} {k : Nat} {s : TokenStream} (h : Stands text k s) :
    (entries text)[k]? = some (s.current, s.position) := by
  rw [entries_eq]
  by_cases done : s.current = .endOfInput
  · have last : k = (Lexeme.ofText text).length := by
      have := h.length_pending
      rw [TokenStream.pending, if_pos done, List.length_nil] at this
      have := h.bounded
      omega
    rw [List.getElem?_append_right (Nat.le_of_eq (by rw [List.length_map, last])),
      List.length_map, last, Nat.sub_self, done, h.settled.finished done, h.same]
    rfl
  · have more := h.pending
    rw [pending_cons done] at more
    have first : (Lexeme.ofText text)[k]? = some ⟨s.current, s.position⟩ := by
      rw [← List.head?_drop, ← more]
      rfl
    have short : k < (Lexeme.ofText text).length := (List.getElem?_eq_some_iff.1 first).1
    rw [List.getElem?_append_left (by rwa [List.length_map]), List.getElem?_map, first]
    rfl

theorem Stands.tokensFrom_eq {text : String} {k : Nat} {s : TokenStream} (h : Stands text k s) :
    tokensFrom (entries text) k = s.tokens := by
  have bounded : k ≤ ((Lexeme.ofText text).map fun l => (l.token, l.stop)).length := by
    rw [List.length_map]
    exact h.bounded
  rw [tokensFrom, entries_eq, List.drop_append_of_le_length bounded, List.dropLast_concat,
    tokens, h.pending, List.map_drop, List.map_drop, List.map_map]
  rfl

theorem Stands.follow {text : String} {k : Nat} {s s' : TokenStream} (h : Stands text k s)
    (follows : Follows s s') :
    ∃ k', k ≤ k' ∧ Stands text k' s' := by
  have suffix := follows.pending
  rw [h.pending] at suffix
  have whole := suffix.trans (List.drop_suffix _ _)
  have shorter := suffix.length_le
  rw [List.length_drop] at shorter
  have := h.bounded
  exact ⟨(Lexeme.ofText text).length - s'.pending.length, by omega,
    follows.text.trans h.same, follows.settled, Nat.sub_le _ _, List.suffix_iff_eq_drop.1 whole⟩

theorem Stands.unique {text : String} {k k' : Nat} {s s' : TokenStream} (h : Stands text k s)
    (h' : Stands text k' s') (pending : s'.pending.length = s.pending.length) : k' = k := by
  have := h.length_pending
  have := h'.length_pending
  have := h.bounded
  have := h'.bounded
  omega

/-- How an action that starts at entry `k` ends at entry `k'`, with this answer and this stream. -/
structure Step (frames : Frames) (T : List (Token × Nat)) (a : Action) (k k' : Nat)
    (answer : Except Fault Answer) (s : TokenStream) : Prop where
  entry : T[k']? = some (s.current, s.position)
  forward : k ≤ k'
  last : k + 1 = T.length → k' = k
  /-- The answer, and what is left to read, depend on the tokens from entry `k` on alone. -/
  decided : (answer, tokensFrom T k') = outcome frames a (tokensFrom T k)
  still : a = .current ∨ (∃ wanted label fault, a = .consume wanted label ∧ answer = .error fault) →
    k' = k
  one : a = .take ∨ a = .advance ∨
      (∃ wanted label, a = .consume wanted label ∧ answer = .ok .done) →
    k' = if k + 1 < T.length then k + 1 else k

theorem Stands.perform (frames : Frames) {text : String} {k : Nat} {s : TokenStream}
    (h : Stands text k s) (a : Action) :
    ∃ k', Stands text k' (s.perform frames a).2 ∧
      Step frames (entries text) a k k' (s.perform frames a).1 (s.perform frames a).2 := by
  obtain ⟨follows, decided⟩ := perform_outcome frames h.settled a
  obtain ⟨k', forward, stands⟩ := h.follow follows
  refine ⟨k', stands, stands.entry, forward, fun last => ?_, ?_, fun still => ?_, fun one => ?_⟩
  · have := stands.bounded
    rw [length_entries] at last
    omega
  · rw [stands.tokensFrom_eq, h.tokensFrom_eq]
    exact decided
  · have same : (s.perform frames a).2 = s := by
      rcases still with rfl | ⟨wanted, label, fault, rfl, failed⟩
      · rfl
      · rw [TokenStream.perform] at failed ⊢
        split at failed
        · cases failed
        · next other => rw [if_neg other]
    exact h.unique stands (by rw [same])
  · have moved : (s.perform frames a).2 = s.advance := by
      rcases one with rfl | rfl | ⟨wanted, label, rfl, ok⟩
      · rfl
      · rfl
      · rw [TokenStream.perform] at ok ⊢
        split at ok
        · next found => rw [if_pos found]
        · cases ok
    have rest := stands.length_pending
    rw [moved, pending_advance_tail h.settled, List.length_tail, h.length_pending] at rest
    have := stands.bounded
    have := h.bounded
    rw [length_entries]
    split <;> omega

/-- A stream that is used in any way walks along the entries of its text. -/
theorem Stands.performAll {frames : Frames} {text : String} {k : Nat} {s : TokenStream}
    (h : Stands text k s) (actions : List Action) :
    ∃ place : Nat → Nat, place 0 = k ∧ ∀ i a answer s', actions[i]? = some a →
      (s.performAll frames actions)[i]? = some (answer, s') →
        Step frames (entries text) a (place i) (place (i + 1)) answer s' := by
  induction actions generalizing k s with
  | nil =>
    refine ⟨fun _ => k, rfl, fun i a answer s' action _ => ?_⟩
    cases List.getElem?_nil.symm.trans action
  | cons a actions ih =>
    obtain ⟨k', stands, step⟩ := h.perform frames a
    obtain ⟨place, first, others⟩ := ih stands
    refine ⟨fun i => Nat.casesOn i k place, rfl, ?_⟩
    rintro (_ | i) b answer s' action result
    · cases action
      have same : s.perform frames a = (answer, s') := Option.some.inj result
      rw [same, ← first] at step
      exact step
    · exact others i b answer s' action result

theorem length_performAll (frames : Frames) (s : TokenStream) (actions : List Action) :
    (s.performAll frames actions).length = actions.length := by
  induction actions generalizing s with
  | nil => rfl
  | cons a actions ih => exact congrArg Nat.succ (ih _)

/-- However a fresh stream of a text is used, it has an outcome for every action, begins at the
first entry, and each action takes it from one entry to another. -/
theorem performAll_along_entries (frames : Frames) (text : String) (actions : List Action) :
    ((ofText text).performAll frames actions).length = actions.length ∧
      (entries text)[0]? = some ((ofText text).current, (ofText text).position) ∧
        ∃ place : Nat → Nat, place 0 = 0 ∧ ∀ i a answer s, actions[i]? = some a →
          ((ofText text).performAll frames actions)[i]? = some (answer, s) →
            Step frames (entries text) a (place i) (place (i + 1)) answer s :=
  ⟨length_performAll frames _ actions, (stands_ofText text).entry,
    (stands_ofText text).performAll actions⟩

end LineCalc.TokenStream

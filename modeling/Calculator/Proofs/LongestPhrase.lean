import Calculator.Proofs.Balance
import Calculator.Proofs.Delivery

/-!
# The longest phrase

A reader that is asked for a phrase takes the longest one that stands in front of
it.  This is so wherever earlier requests have left the reader, those included
that have failed.  What stands in front of it are tokens of the text that no
demand has taken yet (`Reader.At.getElem?_ahead`).

There are two sides to it.

* Nothing stops short.  A phrase that the token behind it does not go on with is
  fed to the stack of the machine, and the machine ends there with its value
  (`Reader.Faces.exists_phraseWithin_eq`).
* Nothing runs long.  Where the machine ends with a value it has read a phrase,
  and the token behind it does not go on with it.  So no longer phrase begins
  with this one (`Phrase.EndsAt.not_derives_append`).
-/

namespace Calculator

/-- Whether no phrase of this sort goes on with a token behind an operand.  An expression ends in
front of any token but `+`, `-`, `*` and `/`, a term goes on with `*` and `/` only, and a factor ends
in front of every token. -/
def Phrase.EndsAt (phrase : Phrase) (next : Token) : Prop :=
  ∀ operator, phrase.joins operator = true → next.isPunctuator operator.text = false

/-! ## Tokens in front of a reader -/

theorem Lexer.getElem?_scan {lexer : Lexer} {i : Nat} {token : Token}
    (h : lexer.scan.1[i]? = some token) : token = lexer.delivered i := by
  fun_induction scan lexer generalizing i with
  | case1 => cases h
  | case2 lexer first hn =>
      cases i with
      | zero => rw [delivered_zero hn]; exact (Option.some.inj h).symm
      | succ i => cases h
  | case3 lexer first hn _ ih =>
      cases i with
      | zero => rw [delivered_zero hn]; exact (Option.some.inj h).symm
      | succ i => rw [delivered_succ hn]; exact ih h

/-- What a reader has in front of it are the tokens from its place on. -/
theorem Reader.At.getElem?_ahead {tokens : Nat → Token} {k i : Nat} {reader : Reader}
    {token : Token} (h : reader.At tokens k) (ht : reader.ahead.1[i]? = some token) :
    token = tokens (k + i) := by
  rw [ahead] at ht
  cases i with
  | zero =>
      split at ht
      · exact (Option.some.inj ht).symm.trans h.token_eq
      · exact (Option.some.inj ht).symm.trans h.token_eq
  | succ i =>
      split at ht
      · cases ht
      · rw [Lexer.getElem?_scan ht, h.delivered_eq, Nat.add_assoc, Nat.add_comm 1 i]

/-! ## The end of a phrase -/

namespace Stack

theorem phrase_of_feed {p : Phrase} {level : Level} {ts : List Token}
    (h : (start p).feed ts = .ok ⟨.operator, level, []⟩) : level.phrase = p := by
  cases holds_of_feed h with
  | outermost hp _ => exact hp

theorem operator?_eq_none_iff {stack : Stack} {token : Token} :
    stack.operator? token = none ↔ stack.level.phrase.EndsAt token := by
  constructor
  · intro h operator hj
    rw [Bool.eq_false_iff]
    intro ht
    cases h.symm.trans (operator?_of_joins ht hj)
  · intro h
    cases ho : stack.operator? token with
    | none => rfl
    | some operator =>
        obtain ⟨ht, hj⟩ := operator?_eq_some ho
        cases (h operator hj).symm.trans ht

/-- Outside all parentheses a token is trailing where the phrase does not go on with it. -/
theorem shift_eq_trailing_iff {level : Level} {token : Token} :
    shift ⟨.operator, level, []⟩ token = .error (.trailingInput token) ↔
      level.phrase.EndsAt token := by
  rw [← @operator?_eq_none_iff ⟨.operator, level, []⟩]
  cases ho : operator? ⟨.operator, level, []⟩ token with
  | none => simp only [shift, ho]
  | some operator => simp [shift, ho]

end Stack

/-- No phrase begins with a phrase of its sort and a token with which this does not go on. -/
theorem Phrase.EndsAt.not_derives_append {p : Phrase} {ts more : List Token} {next : Token}
    {v : Int} {w : Except Token Int} (h : p.EndsAt next) (hd : Derives p ts (.ok v)) :
    ¬ Derives p (ts ++ next :: more) w := by
  intro hw
  obtain ⟨level, hf, -⟩ := Stack.feed_of_derives hd
  have hs := Stack.shift_eq_trailing_iff.2 (Stack.phrase_of_feed hf ▸ h)
  have he := Stack.mapError_eq_of_feed hw (Stack.feed_error_of_shift hf hs more)
  cases w with
  | ok x => cases he
  | error slash => cases he

/-! ## Runs -/

namespace State

/-- Where its phrase is complete a machine stops with the value. -/
theorem step_of_endsAt {limit : Option Nat} {state : State} {level : Level}
    (hs : state.stack = ⟨.operator, level, []⟩) (he : level.phrase.EndsAt state.reader.token) :
    state.step limit = .done (.ok level.value) state.reader := by
  obtain ⟨phase, level, outer, reader⟩ := state
  cases hs
  have ho : operator? ⟨.operator, level, [], reader⟩ = none :=
    (@Stack.operator?_eq_none_iff ⟨.operator, level, []⟩ _).2 he
  simp only [step, ho, closeLevel]

/-- A limit stops a machine at no tokens that keep to it. -/
theorem reaches_of_nestsFrom {limit : Option Nat} {state last : State} {ts : List Token}
    (h : Reaches none state ts last) (ho : state.outer = [])
    (hn : ∀ n ∈ limit, NestsFrom 0 n ts) : Reaches limit state ts last := by
  cases limit with
  | none => exact h
  | some n =>
      have hlen : state.outer.length = 0 := List.length_eq_zero_iff.2 ho
      refine (reaches_iff (hlen ▸ Nat.zero_le n)).2 ⟨h, ?_⟩
      rw [hlen]
      exact hn n rfl

theorem Reaches.nestsFrom {limit : Option Nat} {state last : State} {ts : List Token}
    (h : Reaches limit state ts last) (ho : state.outer = []) :
    ∀ n ∈ limit, NestsFrom 0 n ts := by
  rintro n ⟨⟩
  have hlen : state.outer.length = 0 := List.length_eq_zero_iff.2 ho
  have hn := ((reaches_iff (hlen ▸ Nat.zero_le n)).1 h).2
  rwa [hlen] at hn

end State

namespace Reader

/-- `Faces limit phrase reader v ts next rest`: in front of a reader stands a phrase with the value
`v` that keeps to a limit, and behind it a token with which it does not go on. -/
structure Faces (limit : Option Nat) (phrase : Phrase) (reader : Reader) (v : Int)
    (ts : List Token) (next : Token) (rest : List Token) : Prop where
  ahead_eq : reader.ahead.1 = ts ++ next :: rest
  derives : Derives phrase ts (.ok v)
  ends : phrase.EndsAt next
  nests : ∀ n ∈ limit, NestsFrom 0 n ts

/-- A phrase in front of a reader is calculated, and the reader is left behind it. -/
theorem Faces.exists_phraseWithin_eq {limit : Option Nat} {phrase : Phrase} {reader : Reader}
    {v : Int} {ts rest : List Token} {next : Token}
    (h : reader.Faces limit phrase v ts next rest) :
    ∃ left, reader.phraseWithin limit phrase = (.ok v, left) ∧ left.token = next ∧
      left.ahead = (next :: rest, reader.ahead.2) := by
  obtain ⟨level, hf, rfl⟩ := Stack.feed_of_derives h.derives
  have ha : reader.ahead = (ts ++ next :: rest, reader.ahead.2) := Prod.ext h.ahead_eq rfl
  obtain ⟨last, hr, hstack, rfl⟩ :=
    @State.exists_reaches_of_feed (.start phrase reader) _ _ _ _ _ ha hf
  have hstep := @State.step_of_endsAt limit _ _ hstack (Stack.phrase_of_feed hf ▸ h.ends)
  have hrun := State.run_of_reaches (State.reaches_of_nestsFrom hr rfl h.nests)
  rw [State.run_of_step_done hstep] at hrun
  refine ⟨last.reader, hrun, rfl, ?_⟩
  have hb := ha.symm.trans hr.ahead
  exact Prod.ext (List.append_cancel_left (congrArg Prod.fst hb)).symm (congrArg Prod.snd hb).symm

/-- Where a phrase has a value, it stands in front of the reader. -/
theorem exists_faces {limit : Option Nat} {phrase : Phrase} {reader : Reader} {v : Int}
    (h : (reader.phraseWithin limit phrase).1 = .ok v) :
    ∃ ts next rest, reader.Faces limit phrase v ts next rest := by
  obtain ⟨ts, last, hr, hs⟩ := State.exists_reaches_run limit (.start phrase reader)
  obtain ⟨rest, hrest⟩ := last.reader.exists_ahead_eq
  have ha := congrArg Prod.fst hr.ahead
  rw [hrest] at ha
  have hf := hr.feed
  have hn := hr.nestsFrom rfl
  obtain ⟨phase, level, outer, left⟩ := last
  change (State.run limit (.start phrase reader)).1 = .ok v at h
  rw [h] at hs
  have hc := State.steps limit ⟨phase, level, outer, left⟩
  rw [hs] at hc
  generalize (State.run limit (.start phrase reader)).2 = behind at hc
  cases hc with
  | complete hp ho hsh =>
      cases hp
      cases ho
      have he := Stack.shift_eq_trailing_iff.1 hsh
      rw [Stack.phrase_of_feed hf] at he
      exact ⟨ts, left.token, rest, ha, Stack.derives_of_feed hf, he, hn⟩

/-- No phrase in front of a reader is longer than the one that it takes. -/
theorem Faces.length_le {limit : Option Nat} {phrase : Phrase} {reader : Reader} {v : Int}
    {ts us rest : List Token} {next : Token} {w : Except Token Int}
    (h : reader.Faces limit phrase v ts next rest) (hp : us <+: reader.ahead.1)
    (hd : Derives phrase us w) : us.length ≤ ts.length := by
  rw [h.ahead_eq] at hp
  rcases List.prefix_or_prefix_of_prefix hp (List.prefix_append ts _) with hu | ⟨more, rfl⟩
  · exact hu.length_le
  · cases more with
    | nil => rw [List.append_nil]
    | cons token more =>
        have hc := (List.prefix_append_right_inj ts).1 hp
        cases (List.cons_prefix_cons.1 hc).1
        exact absurd hd (h.ends.not_derives_append h.derives)

/-- What a reader does when it is asked for a phrase. -/
structure TakesLongest (limit : Option Nat) (phrase : Phrase) (reader : Reader) : Prop where
  /-- It gives the value of a phrase in front of it, and no other value. -/
  value_iff : ∀ v, (reader.phraseWithin limit phrase).1 = .ok v ↔
    ∃ ts next rest, reader.Faces limit phrase v ts next rest
  /-- The token behind the phrase becomes the current one. -/
  behind : ∀ v ts next rest, reader.Faces limit phrase v ts next rest →
    (reader.phraseWithin limit phrase).2.token = next ∧
      (reader.phraseWithin limit phrase).2.ahead = (next :: rest, reader.ahead.2)
  /-- No phrase of this sort in front of it is longer, whatever it means. -/
  longest : ∀ v ts next rest, reader.Faces limit phrase v ts next rest →
    ∀ us w, us <+: reader.ahead.1 → Derives phrase us w → us.length ≤ ts.length

theorem takesLongest (limit : Option Nat) (phrase : Phrase) (reader : Reader) :
    reader.TakesLongest limit phrase := by
  refine ⟨?_, ?_, ?_⟩
  · intro v
    refine ⟨exists_faces, ?_⟩
    rintro ⟨ts, next, rest, h⟩
    obtain ⟨left, he, -⟩ := h.exists_phraseWithin_eq
    rw [he]
  · intro v ts next rest h
    obtain ⟨left, he, ht, ha⟩ := h.exists_phraseWithin_eq
    rw [he]
    exact ⟨ht, ha⟩
  · intro v ts next rest h us w hp hd
    exact h.length_le hp hd

end Reader

/-- Whatever was asked of a reader before, it takes the longest phrase that the next tokens are,
and leaves the token behind it. -/
theorem requests_take_longest {text : Text} {reader : Reader}
    (h : Reader.ofText text = .ok reader) (requests : List Reader.Request) :
    (∀ i token, (reader.performAll requests).ahead.1[i]? = some token →
      token = (Lexer.ofText text).delivered (reader.met (reader.allDemands requests) + i)) ∧
    ∀ limit phrase, (reader.performAll requests).TakesLongest limit phrase := by
  have hat := (Reader.at_zero_of_ofText h).behind (reader.allDemands requests)
  rw [Nat.zero_add, ← Reader.performAll_eq] at hat
  exact ⟨fun _ _ => hat.getElem?_ahead, fun limit phrase => Reader.takesLongest limit phrase _⟩

/-- A request that a fault of the text made fail is made again, and reads on behind the fault. -/
theorem requests_take_longest_again :
    ∃ reader, Reader.ofText "7?+2*3)".toList = .ok reader ∧
      ((reader.performAll [.phrase none .expression]).phraseWithin none .expression).1 = .ok 13 ∧
      ((reader.performAll [.phrase none .expression]).phraseWithin none .expression).2.token =
        .lexeme .punctuator [')'] 6 := by
  let seven := Token.lexeme .numeric ['7'] 0
  have ho : Reader.ofText "7?+2*3)".toList = .ok ⟨seven, ⟨1, "?+2*3)".toList, false⟩⟩ := rfl
  have hp : Reader.performAll ⟨seven, ⟨1, "?+2*3)".toList, false⟩⟩ [.phrase none .expression] =
      ⟨seven, ⟨2, "+2*3)".toList, false⟩⟩ := by
    with_unfolding_all rfl
  have h := (requests_take_longest ho [.phrase none .expression]).2 none .expression
  have hproduct := @Derives.product [.lexeme .numeric ['2'] 3] _ (.lexeme .punctuator ['*'] 4) .mul
    _ _ (.factor (.numeral rfl)) rfl (Or.inl rfl) (@Derives.numeral (.lexeme .numeric ['3'] 5) rfl)
  have hsum := @Derives.sum [seven] _ (.lexeme .punctuator ['+'] 2) .add _ _
    (.term (.factor (.numeral rfl))) rfl (Or.inl rfl) hproduct
  obtain ⟨ts, hf⟩ : ∃ ts, Reader.Faces none .expression ⟨seven, ⟨2, "+2*3)".toList, false⟩⟩ 13 ts
      (.lexeme .punctuator [')'] 6) [.endOfText 7] := by
    refine ⟨_, ?_, hsum, ?_, nofun⟩
    · decide +kernel
    · intro operator _
      cases operator <;> rfl
  rw [← hp] at hf
  exact ⟨_, ho, (h.value_iff 13).2 ⟨_, _, _, hf⟩, (h.behind _ _ _ _ hf).1⟩

end Calculator

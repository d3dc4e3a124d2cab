import Calculator.Proofs.Depth

/-!
# Parentheses of tokens

At some place among tokens a parenthesis is open if more of them are opened than
closed in front of it.  This is a matter of counting (`NestsFrom`).  So it can be
said without the machine what a limit on open parentheses allows.

The machine keeps to a limit with the tokens that it accepts, and a limit stops
it at no tokens that keep to it (`State.reaches_iff`).  The tokens of a whole
expression say how many parentheses are open while it is calculated
(`opensAtMost_of_nestsFrom`, `OpensAtMost.nestsFrom`).
-/

namespace Calculator

/-- `NestsFrom k n ts`: behind `k` open parentheses the tokens never have more than `n` open. -/
def NestsFrom (k n : Nat) (ts : List Token) : Prop :=
  ∀ front, front <+: ts → k + Stack.tally ['('] front ≤ Stack.tally [')'] front + n

/-! ## Counting -/

theorem Stack.tally_append (text : Text) (ts us : List Token) :
    tally text (ts ++ us) = tally text ts + tally text us :=
  List.countP_append

theorem Stack.tally_cons (text : Text) (token : Token) (ts : List Token) :
    tally text (token :: ts) = tally text [token] + tally text ts :=
  tally_append text [token] ts

/-- A punctuator is counted as what it is. -/
theorem Stack.tally_singleton {token : Token} {text : Text} (h : token.isPunctuator text = true)
    (other : Text) : tally other [token] = if text = other then 1 else 0 := by
  rw [tally, List.countP_singleton, Token.isPunctuator_eq h]
  simp

namespace NestsFrom

theorem le {k n : Nat} {ts : List Token} (h : NestsFrom k n ts) : k ≤ n := by
  have hn := h [] List.nil_prefix
  rwa [Stack.tally, Stack.tally, List.countP_nil, List.countP_nil, Nat.zero_add] at hn

theorem nil {k n : Nat} (h : k ≤ n) : NestsFrom k n [] := by
  intro front hp
  rw [List.prefix_nil.1 hp, Stack.tally, Stack.tally, List.countP_nil, List.countP_nil,
    Nat.zero_add]
  exact h

theorem append {k j n : Nat} {ts us : List Token} (h : NestsFrom k n ts)
    (he : j + Stack.tally [')'] ts = k + Stack.tally ['('] ts) (h' : NestsFrom j n us) :
    NestsFrom k n (ts ++ us) := by
  intro front hp
  rcases List.prefix_or_prefix_of_prefix hp (List.prefix_append ts us) with hf | ⟨front, rfl⟩
  · exact h front hf
  · have hf := h' front ((List.prefix_append_right_inj ts).1 hp)
    rw [Stack.tally_append, Stack.tally_append]
    omega

theorem tail {k j n : Nat} {token : Token} {ts : List Token} (h : NestsFrom k n (token :: ts))
    (he : j + Stack.tally [')'] [token] = k + Stack.tally ['('] [token]) : NestsFrom j n ts := by
  intro front hp
  have hf := h (token :: front) (List.cons_prefix_cons.2 ⟨rfl, hp⟩)
  rw [Stack.tally_cons ['('] token, Stack.tally_cons [')'] token] at hf
  omega

theorem singleton {k j n : Nat} {token : Token} (hk : k ≤ n)
    (he : j + Stack.tally [')'] [token] = k + Stack.tally ['('] [token]) (hj : j ≤ n) :
    NestsFrom k n [token] := by
  intro front hp
  rcases List.prefix_cons_iff.1 hp with rfl | ⟨rest, rfl, hrest⟩
  · exact nil hk [] List.nil_prefix
  · rw [List.prefix_nil.1 hrest]
    omega

end NestsFrom

/-! ## Calculations -/

namespace State

theorem run_of_reaches {limit : Option Nat} {state last : State} {ts : List Token}
    (h : Reaches limit state ts last) : state.run limit = last.run limit := by
  induction h with
  | refl state => rfl
  | head hs _ ih => rw [run_of_step_next hs, ih]

/-- A step below the limit does not lead above it. -/
theorem length_outer_le_of_step {n : Nat} {state next : State}
    (h : state.step (some n) = .next next) (ho : state.outer.length ≤ n) :
    next.outer.length ≤ n := by
  by_contra hn
  have hd := Nat.lt_of_lt_of_le (Nat.not_le.1 hn) (Stack.length_outer_le_depth (step_next h).1)
  have hx := @Stack.exceeds_of_lt_depth n state.stack state.reader.token ho hd
  cases (step_of_exceeds hx).symm.trans h

/-- A parenthesis at which the limit stops a calculation is one too many by counting. -/
theorem not_exceeds_of_nestsFrom {n : Nat} {state : State} {ts : List Token}
    (h : NestsFrom state.outer.length n (state.reader.token :: ts)) :
    state.stack.exceeds (some n) state.reader.token = false := by
  rw [Bool.eq_false_iff]
  intro hx
  obtain ⟨hopens, hle⟩ := Stack.exceeds_some_iff.1 hx
  have hp := (Stack.opens_iff.1 hopens).2
  have hn := h [state.reader.token] (List.prefix_append [_] ts)
  rw [Stack.tally_singleton hp, Stack.tally_singleton hp, if_pos rfl, if_neg (by decide)] at hn
  change n ≤ state.outer.length at hle
  omega

/-- The tokens that a machine accepts within a limit are those that keep to it. -/
theorem reaches_iff {n : Nat} {state last : State} {ts : List Token}
    (ho : state.outer.length ≤ n) :
    Reaches (some n) state ts last ↔
      Reaches none state ts last ∧ NestsFrom state.outer.length n ts := by
  constructor
  · intro h
    refine ⟨h.none, ?_⟩
    induction h with
    | refl state => exact .nil ho
    | head hs _ ih =>
        have hnext := length_outer_le_of_step hs ho
        have hshift := Stack.length_outer_of_shift (step_next hs).1
        exact (NestsFrom.singleton ho hshift hnext).append hshift (ih hnext)
  · rintro ⟨h, hn⟩
    induction h with
    | refl state => exact .refl state
    | head hs _ ih =>
        have htail := hn.tail (Stack.length_outer_of_shift (step_next hs).1)
        have hstep := step_of_not_exceeds (not_exceeds_of_nestsFrom hn)
        exact .head (hstep.trans hs) (ih htail.le htail)

end State

/-! ## Expressions -/

/-- While an expression is calculated, no more parentheses are open than by counting. -/
theorem opensAtMost_of_nestsFrom {n : Nat} {text : Text} {ts : List Token} {last : Token}
    (hs : scan text = (ts ++ [last], none)) (h : NestsFrom 0 n ts) : OpensAtMost n text := by
  intro reader ho us state hr
  obtain ⟨rest, hrest⟩ := state.reader.exists_ahead_eq
  have ha := hs.symm.trans ((Reader.ahead_of_ofText ho).symm.trans hr.ahead)
  rw [hrest] at ha
  have hp : us <+: ts := by
    rcases concat_split (congrArg Prod.fst ha) with ⟨rfl, -⟩ | ⟨between, rfl⟩
    · exact List.prefix_refl ts
    · exact List.prefix_append ..
  have hlen := Stack.length_outer_of_feed hr.feed
  change state.outer.length + _ = 0 + _ at hlen
  have hle := h us hp
  omega

/-- Every parenthesis of an expression is open at some time, if all its tokens can be fed. -/
theorem OpensAtMost.nestsFrom {n : Nat} {text : Text} {ts : List Token} {last : Token}
    {stack : Stack} (h : OpensAtMost n text) (hs : scan text = (ts ++ [last], none))
    (hf : (Stack.start .expression).feed ts = .ok stack) : NestsFrom 0 n ts := by
  rintro front ⟨back, rfl⟩
  obtain ⟨middle, hm, -⟩ := Stack.feed_ok_of_append hf
  obtain ⟨token, rest, hrest⟩ : ∃ token rest, back ++ [last] = token :: rest := by
    cases back with
    | nil => exact ⟨last, [], rfl⟩
    | cons token back => exact ⟨token, back ++ [last], rfl⟩
  rw [List.append_assoc, hrest] at hs
  cases ho : Reader.ofText text with
  | error fault =>
      rw [Reader.scan_of_ofText_error ho] at hs
      cases congrArg Prod.snd hs
  | ok reader =>
      rw [← Reader.ahead_of_ofText ho] at hs
      obtain ⟨state, hr, rfl, -⟩ :=
        @State.exists_reaches_of_feed (.start .expression reader) _ _ _ _ _ hs hm
      have hle := h reader ho front state hr
      have hlen := Stack.length_outer_of_feed hm
      change state.outer.length + _ = 0 + _ at hlen
      omega

end Calculator

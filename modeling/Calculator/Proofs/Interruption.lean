import Calculator.Proofs.Openings
import Calculator.Proofs.Safety
import Calculator.Proofs.Termination

/-!
# Calculations that are broken off

A limit on the parentheses open at one time can stand for the stack that a
calculation runs on.  The machine looks at its limit before it reads on.  A stack
is used up anywhere, also in the middle of a reading.  Then the lexer has moved,
and the current token has not changed (`State.Breaks`).

So there are two ways to be left behind a request (`Reader.Yields`).  A request
within its limit does what `Reader.perform` says.  Otherwise the calculation is
broken off somewhere at more open parentheses than its limit allows.

* Within the limits of all requests nothing is broken off, and no token is lost
  (`requests_in_place`).
* Otherwise a token can be lost (`token_lost_behind_break`): the reading that was
  broken off had gone over its first character.
-/

namespace Calculator

/-! ## Breaking off -/

/-- What a lexer can be when it is stopped while it reads a token.  It has gone some characters on,
at most to the one behind the token, which it has to look at. -/
inductive Lexer.Stops (lexer : Lexer) : Lexer → Prop where
  | mk {characters : Nat} {finished : Bool} :
      lexer.position + characters ≤ lexer.next.2.position + 1 →
      finished = lexer.finished ∨ finished = lexer.next.2.finished →
      Stops lexer ⟨lexer.position + characters, lexer.rest.drop characters, finished⟩

/-- The readers that a calculation can leave when it is broken off with more than `n` parentheses
open. -/
inductive State.Breaks (n : Nat) (state : State) : Reader → Prop where
  | mk {ts : List Token} {last : State} {lexer : Lexer} :
      Reaches none state ts last →
      n < last.depth →
      last.reader.lexer.Stops lexer →
      Breaks n state ⟨last.reader.token, lexer⟩

namespace Reader

/-- The readers that a request can leave. -/
inductive Yields (reader : Reader) : Request → Reader → Prop where
  | kept {request : Request} :
      reader.KeepsLimit request →
      Yields reader request (reader.perform request)
  | whole {n : Nat} {last : Reader} :
      (State.start .expression reader).Breaks n last →
      Yields reader (.whole (some n)) last
  | phrase {n : Nat} {phrase : Phrase} {last : Reader} :
      (State.start phrase reader).Breaks n last →
      Yields reader (.phrase (some n) phrase) last

/-- The readers that requests in order can leave. -/
def YieldsAll (reader : Reader) : List Request → Reader → Prop
  | [], last => last = reader
  | request :: requests, last => ∃ next, reader.Yields request next ∧ next.YieldsAll requests last

/-- Whether each of some requests in order stays within its limit. -/
def KeepsLimits (reader : Reader) : List Request → Prop
  | [] => True
  | request :: requests =>
      reader.KeepsLimit request ∧ (reader.perform request).KeepsLimits requests

end Reader

/-! ## Within the limits -/

/-- Each open parenthesis is a token that the calculation has accepted, or its current token. -/
theorem State.Reaches.depth_le_weight {limit : Option Nat} {phrase : Phrase} {reader : Reader}
    {ts : List Token} {last : State} (h : Reaches limit (.start phrase reader) ts last) :
    last.depth ≤ reader.weight := by
  have houter : last.outer.length + Stack.tally [')'] ts = 0 + Stack.tally ['('] ts :=
    Stack.length_outer_of_feed h.feed
  have htally : Stack.tally ['('] ts ≤ ts.length := List.countP_le_length
  have hopens : (last.stack.opens last.reader.token).toNat ≤ last.reader.weight := by
    cases ho : last.stack.opens last.reader.token with
    | false => exact Nat.zero_le _
    | true =>
        rw [Reader.weight, if_neg (Token.kind_ne_of_isPunctuator (Stack.opens_iff.1 ho).2)]
        exact Nat.le_add_left _ _
  have hweight : ts.length + last.reader.weight ≤ reader.weight := h.add_weight_le
  show last.outer.length + _ ≤ _
  omega

theorem State.KeepsTo.not_breaks {n : Nat} {state : State} (h : state.KeepsTo (some n))
    (last : Reader) : ¬ state.Breaks n last := by
  rintro ⟨hr, hn, -⟩
  exact Nat.not_lt.2 (h n rfl _ _ hr) hn

namespace Reader

theorem yields_iff {reader : Reader} {request : Request} (h : reader.KeepsLimit request)
    (last : Reader) : reader.Yields request last ↔ last = reader.perform request := by
  constructor
  · intro hy
    cases hy with
    | kept _ => rfl
    | whole hb => exact absurd hb (State.KeepsTo.not_breaks h last)
    | phrase hb => exact absurd hb (State.KeepsTo.not_breaks h last)
  · rintro rfl
    exact .kept h

theorem yieldsAll_iff {reader : Reader} {requests : List Request} (h : reader.KeepsLimits requests)
    (last : Reader) : reader.YieldsAll requests last ↔ last = reader.performAll requests := by
  induction requests generalizing reader with
  | nil => rfl
  | cons request requests ih =>
      obtain ⟨hk, hks⟩ := h
      constructor
      · rintro ⟨next, hn, hl⟩
        rw [yields_iff hk] at hn
        subst hn
        exact (ih hks).1 hl
      · intro hl
        exact ⟨_, .kept hk, (ih hks).2 hl⟩

/-- With a limit longer than its text a calculation stays within it, wherever requests have left the
reader. -/
theorem keepsTo_of_length_lt {text : Text} {reader : Reader} (ho : ofText text = .ok reader)
    {n : Nat} (h : text.length < n) (requests : List Request) (phrase : Phrase) :
    (State.start phrase (reader.performAll requests)).KeepsTo (some n) := by
  obtain ⟨faults, hp⟩ := exists_poised_performAll ho requests
  have hw := weight_le_of_stands hp.stands
  rintro _ ⟨⟩ ts last hr
  have hd := State.Reaches.depth_le_weight hr
  omega

end Reader

/-- No token is lost, accepted twice or out of order, whatever is asked of a reader, as long as no
calculation comes to more open parentheses than its limit allows. -/
theorem requests_in_place {text : Text} {reader : Reader} (h : Reader.ofText text = .ok reader)
    {requests : List Reader.Request} (hk : reader.KeepsLimits requests) :
    (∀ last, reader.YieldsAll requests last ↔ last = reader.performAll requests) ∧
    (∀ k, ∃ n, ((Lexer.ofText text).readings n).filterMap Except.toOption =
      (List.range k).map (Lexer.ofText text).delivered) ∧
    Reader.InPlace (Lexer.ofText text).delivered reader requests :=
  ⟨Reader.yieldsAll_iff hk, Lexer.exists_readings_delivered _,
    (Reader.at_zero_of_ofText h).inPlace requests⟩

/-- The fault between the first two tokens in parentheses makes the first calculation fail, not the
second. -/
theorem requests_in_place_behind_fault :
    ∃ reader, Reader.ofText "(1?+2)".toList = .ok reader ∧
      reader.KeepsLimits [.whole (some openLimit), .accept ⟨.numeric, none⟩,
        .phrase (some openLimit) .term] ∧
      Reader.InPlace (Lexer.ofText "(1?+2)".toList).delivered reader
        [.whole (some openLimit), .accept ⟨.numeric, none⟩, .phrase (some openLimit) .term] := by
  have ho : Reader.ofText "(1?+2)".toList =
      .ok ⟨.opening 0, ⟨1, "1?+2)".toList, false⟩⟩ := rfl
  have hn : "(1?+2)".toList.length < openLimit := by decide
  have hk : Reader.KeepsLimits ⟨.opening 0, ⟨1, "1?+2)".toList, false⟩⟩
      [.whole (some openLimit), .accept ⟨.numeric, none⟩, .phrase (some openLimit) .term] :=
    ⟨Reader.keepsTo_of_length_lt ho hn [] .expression, trivial,
      Reader.keepsTo_of_length_lt ho hn [.whole (some openLimit), .accept ⟨.numeric, none⟩] .term,
      trivial⟩
  exact ⟨_, ho, hk, (requests_in_place ho hk).2.2⟩

/-! ## Beyond a limit -/

theorem Lexer.delivered_openings (position n k : Nat) (finished : Bool) :
    (Lexer.mk position (openings n) finished).delivered k =
      if k < n then .opening (position + k) else .endOfText ((position + n : Nat) : Int) := by
  induction k generalizing position n finished with
  | zero =>
      cases n with
      | zero => exact delivered_zero rfl
      | succ n => exact delivered_zero (congrArg Prod.fst (next_openings position n finished))
  | succ k ih =>
      cases n with
      | zero =>
          have hn : (Lexer.mk position (openings 0) finished).next.2 =
              ⟨position, openings 0, true⟩ := by
            cases finished <;> rfl
          rw [delivered_succ rfl, hn, ih]
          rfl
      | succ n =>
          have hn := next_openings position n finished
          rw [delivered_succ (congrArg Prod.fst hn), hn, ih, Nat.add_right_comm position 1 k,
            Nat.add_right_comm position 1 n]
          simp only [Nat.add_lt_add_iff_right, Nat.add_assoc]

/-- A reading that is broken off behind its first character has gone over the parenthesis there. -/
theorem State.breaks_opened (m n : Nat) :
    (opened 0 (m + (n + 1))).Breaks m ⟨.opening m, ⟨m + 2, openings n, false⟩⟩ := by
  obtain ⟨ts, hr⟩ := reaches_opened 0 m (n + 1)
  rw [Nat.zero_add] at hr
  have hs : (opened m (n + 1)).reader.lexer.Stops ⟨m + 1 + 1, openings n, false⟩ := by
    refine .mk ?_ (Or.inl rfl)
    simp only [opened, Lexer.next_openings]
    exact Nat.le_succ _
  exact .mk hr (Nat.lt_of_lt_of_eq (Nat.lt_succ_self m) (depth_opened m (n + 1)).symm) hs

/-- A token is lost behind a calculation that is broken off while it reads it: the parenthesis in
front of it is accepted, and the one behind it becomes the current token. -/
theorem token_lost_behind_break :
    ∃ reader last, Reader.ofText (openings 1000) = .ok reader ∧
      reader.wholeWithin (some openLimit) =
        (.error (.nestingTooDeep (.opening 500)), (State.opened 500 499).reader) ∧
      evaluateWithin none (openings 1000) =
        .error (.unexpectedToken (.endOfText 1000) .numeric none) ∧
      reader.Yields (.whole (some openLimit)) last ∧
      (last.accept .punctuator (some ['('])).1 = .ok last.token ∧
      ∀ k, last.token = (Lexer.ofText (openings 1000)).delivered k →
        (last.accept .punctuator (some ['('])).2.token ≠
          (Lexer.ofText (openings 1000)).delivered (k + 1) := by
  have hdelivered := fun k => Lexer.delivered_openings 0 1000 k false
  have hnext := Lexer.next_openings 502 497 false
  have haccept : Reader.accept ⟨.opening 500, ⟨502, openings 498, false⟩⟩ .punctuator
      (some ['(']) = (.ok (.opening 500), ⟨.opening 502, ⟨503, openings 497, false⟩⟩) := by
    rw [Reader.accept, if_pos (by decide), Reader.advance]
    simp only [hnext]
  refine ⟨_, ⟨.opening 500, ⟨502, openings 498, false⟩⟩, Reader.ofText_openings 999,
    Reader.wholeWithin_openings 500 499, evaluateWithin_none_openings 999,
    .whole (State.breaks_opened 500 498), congrArg Prod.fst haccept, ?_⟩
  intro k hk
  rw [Lexer.ofText, hdelivered] at hk ⊢
  rw [haccept]
  -- only the parenthesis at 500 is the current token
  by_cases hlt : k < 1000
  · rw [if_pos hlt] at hk
    have hlocation : (500 : Int) = ((0 + k : Nat) : Int) := congrArg Token.location hk
    rw [if_pos (by omega)]
    intro he
    have hlocation' : (502 : Int) = ((0 + (k + 1) : Nat) : Int) := congrArg Token.location he
    omega
  · rw [if_neg hlt] at hk
    cases congrArg Token.kind hk

end Calculator

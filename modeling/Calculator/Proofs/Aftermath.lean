import Calculator.Proofs.Standing

/-!
# What a failure leaves behind

Nothing is taken back when a request fails.  The reader stays where the failure
was found, and where this is depends on the fault.

* A token that is refused is the current token, and the lexer has not moved for
  it.  A demand that fails like this leaves the reader as it was.
* A fault of the text is found behind the current token of the last demand.
  This token stays the current one, and the lexer stands behind what it could
  not read.
* A division by zero is found once the token behind the divisor is current.  So
  the division sign stands in front of it (`State.Reaches.location_lt`).
-/

namespace Calculator

/-! ## The division sign -/

namespace Stack

/-- The division sign of a level that an operand cannot join stands in front of the operand. -/
theorem Holds.slash_mem {p : Phrase} {level : Level} {outer : List Level} {x : Int}
    {front us : List Token} {slash : Token} (h : Holds p ⟨.operand, level, outer⟩ front)
    (hd : Derives .factor us (.ok x))
    (ho : Stack.operand level outer x = .error (.divisionByZero slash)) :
    slash ∈ front ∧ slash.isPunctuator ['/'] = true := by
  rcases h.operand hd with ⟨_, hn, -⟩ | ⟨front, sign, rfl, ht, -, he⟩
  · cases hn.symm.trans ho
  · cases he.symm.trans ho
    exact ⟨List.mem_append_right _ (List.mem_singleton_self _), ht⟩

/-- A division sign that a level keeps is one of the tokens fed. -/
theorem slash_mem_of_shift {p : Phrase} {stack : Stack} {ts : List Token} {token slash : Token}
    (h : (start p).feed ts = .ok stack)
    (hs : stack.shift token = .error (.divisionByZero slash)) :
    slash ∈ ts ∧ slash.isPunctuator ['/'] = true := by
  have hh := holds_of_feed h
  have hc := shifts stack token
  rw [hs] at hc
  cases hc with
  | numeral hk ho =>
      rw [Token.value, Numeral.read_eq_ofDigits] at ho
      exact hh.slash_mem (.numeral hk) ho
  | closes hp ho =>
      obtain ⟨front, us, heq, hf, hd⟩ := hh.parentheses hp
      obtain ⟨hm, ht⟩ := hf.slash_mem hd ho
      refine ⟨?_, ht⟩
      have hmem : slash ∈ ts ++ [token] := heq ▸ List.mem_append_left us hm
      rcases List.mem_append.1 hmem with hm | hm
      · exact hm
      · -- the token that closes is no division sign
        cases List.mem_singleton.1 hm
        rw [Token.isPunctuator_eq hp] at ht
        cases of_decide_eq_true ht

end Stack

/-! ## Runs -/

namespace Reader

theorem Poised.advance {text : Text} {reader next : Reader} {faults : List Fault} {token : Token}
    (h : Poised text reader faults) (ha : reader.advance = (.ok token, next)) :
    Poised text next [] :=
  .of_next h.stands (next_of_advance_ok ha)

/-- The current token stands in front of the one that is read next. -/
theorem Poised.location_lt {text : Text} {reader next : Reader} {faults : List Fault}
    {token : Token} (h : Poised text reader faults) (ha : reader.advance = (.ok token, next))
    (hk : reader.token.kind ≠ .endOfText) : reader.token.location < next.token.location := by
  obtain ⟨start, stop, ht, hc, -⟩ := h.takes
  obtain ⟨start', hc', ht'⟩ := h.stands.next_takes
  rw [next_of_advance_ok ha] at ht'
  have hlt := ht.lt (by rintro ⟨_, he, hk'⟩; cases he; exact hk hk')
  have hle := hc.le
  have hle' := hc'.le
  rw [ht.token_location, ht'.token_location]
  omega

end Reader

namespace State

/-- A run goes from left to right. -/
theorem Reaches.location_lt {text : Text} {limit : Option Nat} {state last : State}
    {ts : List Token} (h : Reaches limit state ts last) {faults : List Fault}
    (hp : state.reader.Poised text faults) :
    (∃ faults', last.reader.Poised text faults') ∧
      state.reader.token.location ≤ last.reader.token.location ∧
      ∀ token ∈ ts, token.location < last.reader.token.location := by
  induction h generalizing faults with
  | refl state => exact ⟨⟨faults, hp⟩, Int.le_refl _, nofun⟩
  | @head state next last ts hs _ ih =>
      obtain ⟨hsh, ha⟩ := step_next hs
      have hlt := hp.location_lt ha (Stack.accepts_of_shift hsh).kind_ne
      obtain ⟨hlast, hle, hall⟩ := ih (hp.advance ha)
      exact ⟨hlast, by omega, List.forall_mem_cons.2 ⟨by omega, hall⟩⟩

/-- A token that is refused is the current one. -/
theorem run_refused {limit : Option Nat} {state : State} {fault : Fault} {token : Token}
    (h : (state.run limit).1 = .error fault) (hr : fault.Refuses token) :
    (state.run limit).2.token = token := by
  obtain ⟨ts, last, -, hs⟩ := exists_reaches_run limit state
  generalize state.run limit = result at h hs
  obtain ⟨answer, left⟩ := result
  cases h
  have hc := steps limit last
  rw [hs] at hc
  cases hc with
  | unread _ ha =>
      have hl := lexeme_fault (congrArg Prod.fst (Reader.next_of_advance_error ha))
      cases hr.isLexical_eq.symm.trans hl
  | divided _ _ => exact absurd rfl (hr.ne_divisionByZero _)
  | refused _ => exact (hr.token_eq (Or.inl ⟨_, _, rfl⟩)).symm
  | tooDeep _ _ => rcases hr with ⟨_, _, hr⟩ | hr <;> cases hr

/-- Behind a division by zero the current token is one behind the division sign. -/
theorem run_divided {text : Text} {limit : Option Nat} {phrase : Phrase} {reader : Reader}
    {faults : List Fault} {slash : Token} (hp : reader.Poised text faults)
    (h : ((State.start phrase reader).run limit).1 = .error (.divisionByZero slash)) :
    slash.isPunctuator ['/'] = true ∧
      slash.location < ((State.start phrase reader).run limit).2.token.location := by
  obtain ⟨ts, last, hr, hs⟩ := exists_reaches_run limit (.start phrase reader)
  generalize (State.start phrase reader).run limit = result at h hs
  obtain ⟨answer, left⟩ := result
  cases h
  have hc := steps limit last
  rw [hs] at hc
  cases hc with
  | unread _ ha =>
      cases lexeme_fault (congrArg Prod.fst (Reader.next_of_advance_error ha))
  | divided hsh ha =>
      obtain ⟨hm, ht⟩ := Stack.slash_mem_of_shift hr.feed hsh
      obtain ⟨⟨faults', hlast⟩, -, hall⟩ := hr.location_lt hp
      have hlt := hlast.location_lt ha (Stack.accepts_of_shift_error hsh).kind_ne
      exact ⟨ht, Int.lt_trans (hall slash hm) hlt⟩

end State

/-! ## Requests -/

theorem Takes.stop_of_unrecognized {text c : Text} {l : Int} {start stop : Nat}
    (h : Takes text (.error (.unrecognizedCharacter l c)) start stop) : (stop : Int) = l + 1 := by
  cases h
  rfl

theorem Takes.stop_of_unterminated {text : Text} {l : Int} {start stop : Nat}
    (h : Takes text (.error (.unterminatedLiteral l)) start stop) : stop = text.length := by
  cases h
  rfl

namespace Reader

/-- What a request leaves behind when it fails with a fault. -/
structure Leaves (text : Text) (reader : Reader) (request : Request) (fault : Fault) : Prop where
  /-- A demand for another token than the current one changes nothing, and fails again. -/
  unmet : ∀ demand token kind expected, request = .accept demand →
    fault = .unexpectedToken token kind expected →
    reader.perform request = reader ∧ (reader.perform request).Fails fault request
  /-- A token that is refused is the current one. -/
  refused : ∀ token, fault.Refuses token → (reader.perform request).token = token
  /-- The lexer stands behind a character that begins no token. -/
  unrecognized : ∀ l c, fault = .unrecognizedCharacter l c →
    (reader.perform request).lexer.position = l + 1
  /-- A string literal that never ends has taken all that was left. -/
  unterminated : ∀ l, fault = .unterminatedLiteral l →
    (reader.perform request).lexer.position = text.length
  /-- The last demand was for the current token.  It was met, and the reading behind failed. -/
  unread : fault.isLexical = true → ∃ front demand, reader.demands request = front ++ [demand] ∧
    (reader.behind front).token.fits demand.kind demand.text = true ∧
    (reader.behind front).lexer.next.1 = .error fault ∧
    (reader.perform request).token = (reader.behind front).token
  /-- A division by zero is found behind the division sign and its divisor. -/
  divided : ∀ slash, fault = .divisionByZero slash → slash.isPunctuator ['/'] = true ∧
    slash.location < (reader.perform request).token.location

/-- A whole fails as its expression does, or at the token that is left behind the expression. -/
theorem Fails.whole {limit : Option Nat} {reader : Reader} {fault : Fault}
    (h : reader.Fails fault (.whole limit)) :
    reader.Fails fault (.phrase limit .expression) ∨
      fault = .trailingInput (reader.perform (.whole limit)).token := by
  rw [perform, wholeWithin_reader]
  rw [Fails, wholeWithin] at h
  split at h
  · rename_i value last hp
    split at h
    · cases h
    · cases h
      rw [hp]
      exact Or.inr rfl
  · rename_i fault' last hp
    cases h
    exact Or.inl (congrArg Prod.fst hp)

/-- A demand fails for the current token, and then it changes nothing, or because of the text. -/
theorem Fails.accept {reader : Reader} {demand : Demand} {fault : Fault}
    (h : reader.Fails fault (.accept demand)) :
    (fault = .unexpectedToken reader.token demand.kind demand.text ∧
      reader.perform (.accept demand) = reader) ∨ fault.isLexical = true := by
  have hm := reader.meets demand
  rw [show reader.perform (.accept demand) = (reader.meet demand).2 from rfl]
  rw [Fails] at h
  generalize reader.scans [demand] = scans, reader.meet demand = reply at hm h
  cases hm with
  | unmet _ =>
      cases h
      exact Or.inl ⟨rfl, rfl⟩
  | unread _ hn =>
      cases h
      exact Or.inr (lexeme_fault (congrArg Prod.fst hn))
  | met _ _ => cases h

theorem Fails.refused {reader : Reader} {request : Request} {fault : Fault} {token : Token}
    (h : reader.Fails fault request) (hr : fault.Refuses token) :
    (reader.perform request).token = token := by
  cases request with
  | whole limit =>
      rcases h.whole with h | rfl
      · rw [perform, wholeWithin_reader]
        exact State.run_refused h hr
      · exact Fault.Refuses.token_eq (Or.inr rfl) hr
  | phrase limit phrase => exact State.run_refused h hr
  | accept demand =>
      rcases h.accept with ⟨rfl, hp⟩ | hl
      · rw [hp]
        exact Fault.Refuses.token_eq (Or.inl ⟨_, _, rfl⟩) hr
      · cases hr.isLexical_eq.symm.trans hl

theorem Fails.divided {text : Text} {reader : Reader} {faults : List Fault} {request : Request}
    {slash : Token} (h : reader.Fails (.divisionByZero slash) request)
    (hp : reader.Poised text faults) :
    slash.isPunctuator ['/'] = true ∧
      slash.location < (reader.perform request).token.location := by
  cases request with
  | whole limit =>
      rcases h.whole with h | h
      · rw [perform, wholeWithin_reader]
        exact State.run_divided hp h
      · cases h
  | phrase limit phrase => exact State.run_divided hp h
  | accept demand =>
      rcases h.accept with ⟨h, -⟩ | h
      · cases h
      · cases h

/-- A fault of the text is found behind the current token of the last demand. -/
theorem Fails.unread {reader : Reader} {request : Request} {fault : Fault}
    (h : reader.Fails fault request) (hl : fault.isLexical = true) :
    ∃ front demand, reader.demands request = front ++ [demand] ∧
      (reader.behind front).token.fits demand.kind demand.text = true ∧
      (reader.behind front).lexer.next.1 = .error fault ∧
      reader.perform request =
        ⟨(reader.behind front).token, (reader.behind front).lexer.next.2⟩ := by
  obtain ⟨stop, hs, hstop⟩ := reader.serves_request request
  rw [(hstop fault).2 ⟨h, hl⟩] at hs
  obtain ⟨front, demand, he, hf, hn⟩ := hs.exists_last
  refine ⟨front, demand, he, hf, hn, ?_⟩
  have ha := advance_of_next_error (Prod.ext hn rfl)
  rw [perform_eq, he, behind_append]
  exact congrArg Prod.snd ((meet_of_fits hf).trans ha)

/-- What made the request fail was taken off the text last. -/
theorem Fails.exists_takes {text : Text} {reader : Reader} {faults : List Fault}
    {request : Request} {fault : Fault} (h : reader.Fails fault request)
    (hp : reader.Poised text faults) (hl : fault.isLexical = true) :
    ∃ start, Takes text (.error fault) start (reader.perform request).lexer.position := by
  obtain ⟨front, demand, -, -, hn, he⟩ := h.unread hl
  obtain ⟨_, hb, -⟩ := hp.behind front
  obtain ⟨start, -, ht⟩ := hb.stands.next_takes
  rw [hn] at ht
  rw [he]
  exact ⟨start, ht⟩

theorem Fails.leaves {text : Text} {reader : Reader} {faults : List Fault} {request : Request}
    {fault : Fault} (h : reader.Fails fault request) (hp : reader.Poised text faults) :
    reader.Leaves text request fault where
  unmet := by
    rintro demand token kind expected rfl rfl
    rcases h.accept with ⟨-, he⟩ | hl
    · exact ⟨he, he.symm ▸ h⟩
    · cases hl
  refused := fun _ hr => h.refused hr
  unrecognized := by
    rintro l c rfl
    obtain ⟨start, ht⟩ := h.exists_takes hp rfl
    exact ht.stop_of_unrecognized
  unterminated := by
    rintro l rfl
    obtain ⟨start, ht⟩ := h.exists_takes hp rfl
    exact ht.stop_of_unterminated
  unread := by
    intro hl
    obtain ⟨front, demand, hd, hf, hn, he⟩ := h.unread hl
    exact ⟨front, demand, hd, hf, hn, by rw [he]⟩
  divided := by
    rintro slash rfl
    exact h.divided hp

end Reader

/-- Whatever was asked of a reader, failed requests included, what it has read covers the text up to
its lexer, and a request that fails now leaves it where the fault was found. -/
theorem requests_leave_reader {text : Text} {reader : Reader} (h : Reader.ofText text = .ok reader)
    (requests : List Reader.Request) :
    (reader.performAll requests).Standing text
      (.ok reader.token :: reader.scans (reader.allDemands requests)) ∧
    (∀ fault, .error fault ∈ reader.scans (reader.allDemands requests) →
      ∃ before request after, requests = before ++ request :: after ∧
        (reader.performAll before).Fails fault request) ∧
    ∀ request fault, (reader.performAll requests).Fails fault request →
      (reader.performAll requests).Leaves text request fault := by
  obtain ⟨faults, hp, before, he⟩ :=
    (Reader.poised_ofText h).behind (reader.allDemands requests)
  rw [← Reader.performAll_eq] at hp he
  refine ⟨?_, fun _ => Reader.exists_fails_of_mem_scans, fun _ _ hf => hf.leaves hp⟩
  rw [show .ok reader.token :: reader.scans (reader.allDemands requests) = _ from he]
  exact hp.standing

/-- A fault behind the divisor comes before the division by zero, and the divisor stays current. -/
theorem requests_leave_reader_divisor :
    ∃ reader, Reader.ofText "8/0?1".toList = .ok reader ∧
      reader.Fails (.unrecognizedCharacter 3 ['?']) (.phrase none .expression) ∧
      reader.Leaves "8/0?1".toList (.phrase none .expression) (.unrecognizedCharacter 3 ['?']) ∧
      (reader.performAll [.phrase none .expression]).Standing "8/0?1".toList
        (.ok reader.token :: reader.scans (reader.allDemands [.phrase none .expression])) := by
  have ho : Reader.ofText "8/0?1".toList =
      .ok ⟨.lexeme .numeric ['8'] 0, ⟨1, "/0?1".toList, false⟩⟩ := rfl
  have hf : Reader.Fails ⟨.lexeme .numeric ['8'] 0, ⟨1, "/0?1".toList, false⟩⟩
      (.unrecognizedCharacter 3 ['?']) (.phrase none .expression) := by
    with_unfolding_all rfl
  exact ⟨_, ho, hf, (requests_leave_reader ho []).2.2 _ _ hf, (requests_leave_reader ho _).1⟩

end Calculator

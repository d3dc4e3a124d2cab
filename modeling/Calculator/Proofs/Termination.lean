import Calculator.Proofs.CharacterLoop
import Calculator.Proofs.Standing

/-!
# How much is read

A reading that does not find the end of the text takes a character at least, and
a lexer does not go back.  So readings of which only the last can find the end
are no more than there are characters in front of the lexer, and one
(`Lexer.Stands.add_readings_le`).  The end is read again and again only if it is
asked for as a token, each time by a request of its own.

* Going through all tokens stops at the end.
* A calculation never demands the end, so it demands nothing behind it
  (`Reader.not_isEnd_of_scans`).

Where a request before has failed there is less in front of the lexer, and the
bound is lower.
-/

namespace Calculator

/-! ## Readings -/

/-- What is covered has a character for each outcome that is not the end. -/
theorem Covers.add_length_le {text : Text} {outcomes : List (Except Fault Token)}
    {start stop : Nat} (h : Covers text start outcomes stop)
    (he : ∀ outcome ∈ outcomes, ¬ IsEnd outcome) : start + outcomes.length ≤ stop := by
  induction h with
  | nil => exact Nat.le_refl _
  | space _ _ ih =>
      have := ih he
      omega
  | cons ht _ ih =>
      obtain ⟨hf, hr⟩ := List.forall_mem_cons.1 he
      have := ht.lt hf
      have := ih hr
      rw [List.length_cons]
      omega

namespace Lexer

theorem length_readings (lexer : Lexer) (n : Nat) : (lexer.readings n).length = n := by
  induction n generalizing lexer with
  | zero => rfl
  | succ n ih => rw [readings, List.length_cons, ih]

/-- Readings of which only the last one can find the end are bounded by the text. -/
theorem Stands.add_readings_le {text : Text} {lexer : Lexer} (h : lexer.Stands text) {n : Nat}
    (he : ∀ outcome ∈ (lexer.readings n).dropLast, ¬ IsEnd outcome) :
    lexer.position + n ≤ text.length + 1 := by
  cases n with
  | zero => exact Nat.le_succ_of_le h.position_le
  | succ n =>
      obtain ⟨hc, hs⟩ := h.behind n
      rw [readings_add, readings, readings, List.dropLast_concat] at he
      have hle := hc.add_length_le he
      have hend := hs.position_le
      rw [length_readings] at hle
      omega

/-- Only the last reading for a request can find the end. -/
theorem not_isEnd_of_outcomes (lexer : Lexer) (request : Request) :
    ∀ outcome ∈ (lexer.outcomes request).dropLast, ¬ IsEnd outcome := by
  have hkind : ∀ ts : List Token, (∀ token ∈ ts, token.kind ≠ .endOfText) →
      ∀ outcome ∈ ts.map (Except.ok (ε := Fault)), ¬ IsEnd outcome := by
    intro ts hk outcome hm
    obtain ⟨token, ht, rfl⟩ := List.mem_map.1 hm
    rintro ⟨_, he, hend⟩
    cases he
    exact hk token ht hend
  intro outcome hm
  cases request with
  | token => cases hm
  | step =>
      rw [outcomes] at hm
      split at hm
      · cases hm
      · cases hm
  | rest =>
      rw [outcomes] at hm
      split at hm
      · cases hm
      · rcases lexer.scan_split with ⟨ts, last, hs, -, hk⟩ | ⟨ts, fault, hs, hk⟩
        · rw [hs, List.map_append, Option.map_none, Option.toList_none, List.append_nil,
            List.map_singleton, List.dropLast_concat] at hm
          exact hkind ts hk outcome hm
        · rw [hs, Option.map_some, Option.toList_some, List.dropLast_concat] at hm
          exact hkind ts hk outcome hm

/-- A lexer goes on, and it comes to an end. -/
structure Progresses (text : Text) (lexer : Lexer) : Prop where
  position_le : lexer.next.2.position ≤ text.length
  /-- Whatever is read that is not the end moves the cursor. -/
  position_lt : ¬ IsEnd lexer.next.1 → lexer.position < lexer.next.2.position
  /-- A reading is a loop over the characters, with a bounded number of turns. -/
  turns_le : ∃ n, lexer.position + n ≤ text.length + 1 ∧
    Loop.Ends .blank ⟨text, lexer.position⟩ n lexer.next.1 ⟨text, lexer.next.2.position⟩
  /-- A request makes a bounded number of readings. -/
  readings_le : ∀ request, ∃ n, lexer.position + n ≤ text.length + 1 ∧
    lexer.outcomes request = lexer.readings n ∧ (lexer.serve request).2 = lexer.behind n

theorem Stands.progresses {text : Text} {lexer : Lexer} (h : lexer.Stands text) :
    lexer.Progresses text := by
  obtain ⟨hc, hs⟩ := h.next
  refine ⟨hs.position_le, ?_, ?_, ?_⟩
  · exact fun he => hc.lt ⟨_, List.mem_singleton_self _, he⟩
  · obtain ⟨n, hle, he⟩ :=
      Loop.exists_ends_of_reads (lexeme_reads lexer.position lexer.rest) h.drop_eq
    exact ⟨n, Nat.le_trans hle (Nat.succ_le_succ hs.position_le), he⟩
  · intro request
    obtain ⟨n, ho, hb⟩ := lexer.exists_readings request
    have he := lexer.not_isEnd_of_outcomes request
    rw [ho] at he
    exact ⟨n, h.add_readings_le he, ho, hb⟩

end Lexer

/-! ## Demands -/

namespace State

/-- The end of the text is not demanded by a step. -/
theorem kind_ne_of_demand? {limit : Option Nat} {state : State} :
    ∀ demand ∈ state.demand? limit, demand.kind ≠ .endOfText := by
  intro demand hd
  rw [demand?] at hd
  split at hd
  · split at hd
    · split at hd
      · cases hd
      · cases hd
        decide
    · cases hd
      decide
  · split at hd
    · cases hd
      show Kind.punctuator ≠ .endOfText
      decide
    · split at hd
      · cases hd
      · cases hd
        decide

theorem kind_ne_of_demands {limit : Option Nat} {state : State} :
    ∀ demand ∈ state.demands limit, demand.kind ≠ .endOfText := by
  have hstep : ∀ state : State, ∀ demand ∈ (state.demand? limit).toList,
      demand.kind ≠ .endOfText := fun state demand hd =>
    kind_ne_of_demand? demand (Option.mem_toList.1 hd)
  fun_induction demands limit state with
  | case1 state next hs ih => exact List.forall_mem_append.2 ⟨hstep state, ih⟩
  | case2 state answer reader hs => exact hstep state

end State

namespace Reader

/-- Nothing is read at the end of the text unless the end is demanded. -/
theorem scans_eq_nil {reader : Reader} {demands : List Demand}
    (hk : reader.token.kind = .endOfText)
    (hd : ∀ demand ∈ demands, demand.kind ≠ .endOfText) : reader.scans demands = [] := by
  induction demands with
  | nil => rfl
  | cons demand demands ih =>
      obtain ⟨hne, hd⟩ := List.forall_mem_cons.1 hd
      have hm := reader.meets demand
      rw [scans_cons]
      generalize reader.scans [demand] = scans, reader.meet demand = reply at hm
      cases hm with
      | unmet _ => exact ih hd
      | unread hf _ => exact absurd ((Token.fits_iff.1 hf).1.symm.trans hk) hne
      | met hf _ => exact absurd ((Token.fits_iff.1 hf).1.symm.trans hk) hne

/-- One more reading in front can find the end if no others follow it. -/
theorem not_isEnd_of_cons {first : Except Fault Token} {rest : List (Except Fault Token)}
    (h : rest ≠ [] → ¬ IsEnd first) (hr : ∀ outcome ∈ rest.dropLast, ¬ IsEnd outcome) :
    ∀ outcome ∈ (first :: rest).dropLast, ¬ IsEnd outcome := by
  cases rest with
  | nil => exact nofun
  | cons next rest =>
      rw [List.dropLast_cons_of_ne_nil (List.cons_ne_nil next rest)]
      exact List.forall_mem_cons.2 ⟨h (List.cons_ne_nil next rest), hr⟩

/-- Only the last reading for demands can find the end if they are not for it. -/
theorem not_isEnd_of_scans {reader : Reader} {demands : List Demand}
    (hd : ∀ demand ∈ demands, demand.kind ≠ .endOfText) :
    ∀ outcome ∈ (reader.scans demands).dropLast, ¬ IsEnd outcome := by
  induction demands generalizing reader with
  | nil => exact nofun
  | cons demand demands ih =>
      obtain ⟨-, hd⟩ := List.forall_mem_cons.1 hd
      have hm := reader.meets demand
      rw [scans_cons]
      generalize reader.scans [demand] = scans, reader.meet demand = reply at hm
      cases hm with
      | unmet _ => exact ih hd
      | unread _ _ =>
          refine not_isEnd_of_cons (fun _ => ?_) (ih hd)
          rintro ⟨_, he, -⟩
          cases he
      | met _ _ =>
          refine not_isEnd_of_cons (fun hne => ?_) (ih hd)
          rintro ⟨_, he, hk⟩
          cases he
          exact hne (scans_eq_nil hk hd)

/-- Only the last reading for a request can find the end. -/
theorem not_isEnd_of_request (reader : Reader) (request : Request) :
    ∀ outcome ∈ (reader.scans (reader.demands request)).dropLast, ¬ IsEnd outcome := by
  cases request with
  | whole limit => exact not_isEnd_of_scans State.kind_ne_of_demands
  | phrase limit phrase => exact not_isEnd_of_scans State.kind_ne_of_demands
  | accept demand =>
      rw [demands, scans, scans, List.append_nil]
      split
      · intro _ hm
        cases hm
      · intro _ hm
        cases hm

end Reader

/-! ## Runs -/

namespace State

/-- Each step takes from what the reader can go through. -/
theorem Reaches.add_weight_le {limit : Option Nat} {state last : State} {ts : List Token}
    (h : Reaches limit state ts last) : ts.length + last.reader.weight ≤ state.reader.weight := by
  induction h with
  | refl state => exact Nat.le_of_eq (Nat.zero_add _)
  | head hs _ ih =>
      have := step_weight_lt hs
      rw [List.length_cons]
      omega

/-- The end of the text is not accepted. -/
theorem Reaches.kind_ne {limit : Option Nat} {state last : State} {ts : List Token}
    (h : Reaches limit state ts last) : ∀ token ∈ ts, token.kind ≠ .endOfText := by
  induction h with
  | refl state => exact nofun
  | head hs _ ih =>
      exact List.forall_mem_cons.2 ⟨(Stack.accepts_of_shift (step_next hs).1).kind_ne, ih⟩

/-- A phrase is not complete before it has begun. -/
theorem Reaches.ne_nil {limit : Option Nat} {phrase : Phrase} {reader left : Reader}
    {last : State} {ts : List Token} {v : Int} (h : Reaches limit (.start phrase reader) ts last)
    (hs : last.step limit = .done (.ok v) left) : ts ≠ [] := by
  rintro rfl
  have hc := steps limit last
  rw [hs] at hc
  cases h
  cases hc with
  | complete hp _ _ => cases hp

end State

namespace Reader

theorem weight_le_of_stands {text : Text} {reader : Reader} (h : reader.lexer.Stands text) :
    reader.lexer.position + reader.weight ≤ text.length + 1 := by
  have hrest := congrArg List.length h.drop_eq
  have hp := h.position_le
  rw [List.length_drop] at hrest
  rw [weight]
  split
  · omega
  · omega

/-- `Accepts text limit phrase reader ts`: the calculation of a phrase accepts tokens, and ends. -/
structure Accepts (text : Text) (limit : Option Nat) (phrase : Phrase) (reader : Reader)
    (ts : List Token) : Prop where
  exists_last : ∃ last, State.Reaches limit (.start phrase reader) ts last ∧
    last.step limit =
      .done (reader.phraseWithin limit phrase).1 (reader.phraseWithin limit phrase).2
  length_le : reader.lexer.position + ts.length ≤ text.length + 1
  kind_ne : ∀ token ∈ ts, token.kind ≠ .endOfText
  /-- A phrase that has a value is not empty. -/
  ne_nil : ∀ v, (reader.phraseWithin limit phrase).1 = .ok v → ts ≠ []

/-- A reader comes to an end with whatever it is asked for. -/
structure Halts (text : Text) (reader : Reader) : Prop where
  progresses : reader.lexer.Progresses text
  /-- A request makes a bounded number of readings. -/
  readings_le : ∀ request, ∃ n, reader.lexer.position + n ≤ text.length + 1 ∧
    reader.scans (reader.demands request) = reader.lexer.readings n ∧
    (reader.perform request).lexer = reader.lexer.behind n
  /-- A calculation makes a bounded number of steps. -/
  exists_accepts : ∀ limit phrase, ∃ ts, reader.Accepts text limit phrase ts

theorem exists_accepts_of_stands {text : Text} {reader : Reader} (h : reader.lexer.Stands text)
    (limit : Option Nat) (phrase : Phrase) : ∃ ts, reader.Accepts text limit phrase ts := by
  obtain ⟨ts, last, hr, hs⟩ := State.exists_reaches_run limit (.start phrase reader)
  have hw := hr.add_weight_le
  have hle := weight_le_of_stands h
  refine ⟨ts, ⟨last, hr, hs⟩, ?_, hr.kind_ne, ?_⟩
  · change ts.length + _ ≤ reader.weight at hw
    omega
  · intro v hv
    have hs' : last.step limit = .done (reader.phraseWithin limit phrase).1 _ := hs
    rw [hv] at hs'
    exact hr.ne_nil hs'

theorem halts_of_stands {text : Text} {reader : Reader} (h : reader.lexer.Stands text) :
    reader.Halts text where
  progresses := h.progresses
  readings_le := by
    intro request
    obtain ⟨n, hn, hb⟩ := reader.exists_readings_scans (reader.demands request)
    have he := reader.not_isEnd_of_request request
    rw [hn] at he
    rw [← perform_eq] at hb
    exact ⟨n, h.add_readings_le he, hn, hb⟩
  exists_accepts := exists_accepts_of_stands h

end Reader

/-- All outcomes if they are tokens, and otherwise the first fault. -/
theorem mapM_id_outcomes (ts : List Token) (stop : Option Fault) :
    (ts.map Except.ok ++ (stop.map Except.error).toList).mapM id =
      stop.elim (.ok ts) Except.error := by
  induction ts with
  | nil => cases stop <;> rfl
  | cons token ts ih =>
      rw [List.map_cons, List.cons_append, List.mapM_cons, ih]
      cases stop <;> rfl

/-- The tokens of a text are read one after another. -/
theorem exists_readings_tokens (text : Text) :
    ∃ n ≤ text.length + 1, tokens text = ((Lexer.ofText text).readings n).mapM id ∧
      (Lexer.ofText text).drain.2 = (Lexer.ofText text).behind n := by
  obtain ⟨n, hle, ho, hb⟩ := (Lexer.stands_ofText text).progresses.readings_le .rest
  refine ⟨n, Nat.le_trans (Nat.le_add_left ..) hle, ?_, hb⟩
  rw [← ho, tokens_eq_scan]
  exact (mapM_id_outcomes ..).symm

/-- Wherever requests have left a lexer or a reader, what it is asked for next ends, behind no more
readings than there are characters in front of the lexer, and one. -/
theorem requests_halt (text : Text) :
    (∃ n ≤ text.length + 1, tokens text = ((Lexer.ofText text).readings n).mapM id ∧
      (Lexer.ofText text).drain.2 = (Lexer.ofText text).behind n) ∧
    (∀ requests, (Lexer.Session.run text requests).lexer.Progresses text) ∧
    ∀ reader, Reader.ofText text = .ok reader →
      ∀ requests, (reader.performAll requests).Halts text := by
  refine ⟨exists_readings_tokens text, ?_, ?_⟩
  · intro requests
    exact (Lexer.Session.sound_run text requests).stands.progresses
  · intro reader ho requests
    obtain ⟨faults, hp⟩ := Reader.exists_poised_performAll ho requests
    exact Reader.halts_of_stands hp.stands

/-- Behind a literal that never ends nothing is left, and one reading more finds the end. -/
theorem requests_halt_unclosed :
    ∃ reader, Reader.ofText "1+'2".toList = .ok reader ∧
      (reader.performAll [.whole none]).lexer.position = 4 ∧
      (reader.performAll [.whole none]).Halts "1+'2".toList := by
  have ho : Reader.ofText "1+'2".toList =
      .ok ⟨.lexeme .numeric ['1'] 0, ⟨1, "+'2".toList, false⟩⟩ := rfl
  refine ⟨_, ho, ?_, (requests_halt "1+'2".toList).2.2 _ ho _⟩
  with_unfolding_all rfl

end Calculator

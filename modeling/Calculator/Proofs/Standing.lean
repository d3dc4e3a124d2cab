import Calculator.Proofs.Lookahead
import Calculator.Proofs.Place
import Calculator.Proofs.Spacing

/-!
# Where a reader stands

A demand that the current token meets makes the lexer read once, and any other
demand makes it read nothing (`Reader.Meets`).  So a reader has behind it a list
of outcomes, one for each reading that was ever made (`Reader.scans`).

The current token is the last one in this list.  If faults are behind it, each
of them made a demand fail, and what the lexer has passed since the token are
those faults and spaces.  If none are, the lexer stands directly behind the
token.  This holds of a reader at the start of a text, and a demand preserves it
(`Reader.Poised.meet`).

A request makes demands up to the first that fails.  So of the readings for a
request only the last one can be a fault, and then the request fails with it
(`Reader.serves_request`).
-/

namespace Calculator

/-! ## Demands -/

namespace Reader

/-- The outcomes of the readings that demands make. -/
def scans (reader : Reader) : List Demand → List (Except Fault Token)
  | [] => []
  | demand :: demands =>
      (if reader.token.fits demand.kind demand.text then [reader.lexer.next.1] else []) ++
        scans (reader.meet demand).2 demands

/-- What a demand does: the outcome of its reading, if it makes one, and the reply. -/
inductive Meets (reader : Reader) (demand : Demand) :
    List (Except Fault Token) → Except Fault Token × Reader → Prop where
  | unmet :
      reader.token.fits demand.kind demand.text = false →
      Meets reader demand []
        (.error (.unexpectedToken reader.token demand.kind demand.text), reader)
  | unread {fault : Fault} {lexer : Lexer} :
      reader.token.fits demand.kind demand.text = true →
      reader.lexer.next = (.error fault, lexer) →
      Meets reader demand [.error fault] (.error fault, ⟨reader.token, lexer⟩)
  | met {token : Token} {lexer : Lexer} :
      reader.token.fits demand.kind demand.text = true →
      reader.lexer.next = (.ok token, lexer) →
      Meets reader demand [.ok token] (.ok reader.token, ⟨token, lexer⟩)

theorem advance_of_next {reader : Reader} {token : Token} {lexer : Lexer}
    (hn : reader.lexer.next = (.ok token, lexer)) :
    reader.advance = (.ok reader.token, ⟨token, lexer⟩) := by
  rw [advance, hn]

theorem advance_of_next_error {reader : Reader} {fault : Fault} {lexer : Lexer}
    (hn : reader.lexer.next = (.error fault, lexer)) :
    reader.advance = (.error fault, ⟨reader.token, lexer⟩) := by
  rw [advance, hn]

theorem meet_of_fits {reader : Reader} {demand : Demand}
    (hf : reader.token.fits demand.kind demand.text = true) :
    reader.meet demand = reader.advance :=
  if_pos hf

theorem meets (reader : Reader) (demand : Demand) :
    Meets reader demand (reader.scans [demand]) (reader.meet demand) := by
  rw [scans, scans, List.append_nil]
  cases hf : reader.token.fits demand.kind demand.text with
  | false =>
      have hm : reader.meet demand =
          (.error (.unexpectedToken reader.token demand.kind demand.text), reader) :=
        if_neg (Bool.eq_false_iff.1 hf)
      rw [hm]
      exact .unmet hf
  | true =>
      rw [meet_of_fits hf]
      rcases hn : reader.lexer.next with ⟨fault | token, lexer⟩
      · rw [advance_of_next_error hn]
        exact .unread hf hn
      · rw [advance_of_next hn]
        exact .met hf hn

theorem scans_cons (reader : Reader) (demand : Demand) (demands : List Demand) :
    reader.scans (demand :: demands) =
      reader.scans [demand] ++ (reader.meet demand).2.scans demands := by
  rw [scans, scans, scans, List.append_nil]

theorem scans_append (reader : Reader) (first second : List Demand) :
    reader.scans (first ++ second) = reader.scans first ++ (reader.behind first).scans second := by
  induction first generalizing reader with
  | nil => rfl
  | cons demand first ih =>
      rw [List.cons_append, scans_cons, ih, scans_cons reader demand first, List.append_assoc]
      rfl

/-- Demands make readings one after another. -/
theorem exists_readings_scans (reader : Reader) (demands : List Demand) :
    ∃ n, reader.scans demands = reader.lexer.readings n ∧
      (reader.behind demands).lexer = reader.lexer.behind n := by
  induction demands generalizing reader with
  | nil => exact ⟨0, rfl, rfl⟩
  | cons demand demands ih =>
      obtain ⟨n, hn, hb⟩ := ih (reader.meet demand).2
      have hm := reader.meets demand
      rw [scans_cons, hn]
      change ∃ m, _ ∧ ((reader.meet demand).2.behind demands).lexer = _
      rw [hb]
      generalize reader.scans [demand] = scans, reader.meet demand = reply at hm
      cases hm with
      | unmet _ => exact ⟨n, rfl, rfl⟩
      | unread _ ht => exact ⟨n + 1, by rw [Lexer.readings, ht]; rfl, by rw [Lexer.behind, ht]⟩
      | met _ ht => exact ⟨n + 1, by rw [Lexer.readings, ht]; rfl, by rw [Lexer.behind, ht]⟩

/-! ## The invariant -/

/-- `Poised text reader faults`: a lexer has found faults since it read the current token. -/
structure Poised (text : Text) (reader : Reader) (faults : List Fault) : Prop where
  stands : reader.lexer.Stands text
  /-- The token was taken off the text, and the faults behind it. -/
  takes : ∃ start stop, Takes text (.ok reader.token) start stop ∧
    Covers text stop (faults.map .error) reader.lexer.position ∧
    (faults = [] → stop = reader.lexer.position)

theorem Poised.of_next {text : Text} {lexer lexer' : Lexer} {token : Token}
    (h : lexer.Stands text) (hn : lexer.next = (.ok token, lexer')) :
    Poised text ⟨token, lexer'⟩ [] := by
  obtain ⟨start, -, ht⟩ := h.next_takes
  have hs := h.next.2
  rw [hn] at ht hs
  exact ⟨hs, start, lexer'.position, ht, .nil, fun _ => rfl⟩

theorem poised_ofText {text : Text} {reader : Reader} (h : ofText text = .ok reader) :
    Poised text reader [] := by
  rcases hn : (Lexer.ofText text).next with ⟨fault | token, lexer⟩
  · rw [ofText, hn] at h
    cases h
  · rw [ofText, hn] at h
    cases h
    exact .of_next (Lexer.stands_ofText text) hn

/-- A demand that is met leaves no faults behind, and any other adds its own. -/
theorem Poised.meet {text : Text} {reader : Reader} {faults : List Fault}
    (h : Poised text reader faults) (demand : Demand) :
    ∃ faults', Poised text (reader.meet demand).2 faults' ∧
      ∃ before, .ok reader.token :: (faults.map .error ++ reader.scans [demand]) =
        before ++ .ok (reader.meet demand).2.token :: faults'.map .error := by
  have hc := reader.meets demand
  generalize reader.scans [demand] = scans, reader.meet demand = reply at hc
  cases hc with
  | unmet _ => exact ⟨faults, h, [], by rw [List.append_nil]; rfl⟩
  | @unread fault lexer _ hn =>
      obtain ⟨start, stop, ht, hcov, -⟩ := h.takes
      obtain ⟨hnext, hs⟩ := h.stands.next
      rw [hn] at hnext hs
      refine ⟨faults ++ [fault], ⟨hs, start, stop, ht, ?_, ?_⟩, [], ?_⟩
      · rw [List.map_append]
        exact hcov.append hnext
      · intro he
        cases List.append_ne_nil_of_right_ne_nil faults (List.cons_ne_nil fault []) he
      · rw [List.map_append]
        rfl
  | @met token lexer _ hn =>
      exact ⟨[], .of_next h.stands hn, .ok reader.token :: faults.map .error, rfl⟩

/-- Whatever is demanded, the current token is the last one that was read. -/
theorem Poised.behind {text : Text} {reader : Reader} {faults : List Fault}
    (h : Poised text reader faults) (demands : List Demand) :
    ∃ faults', Poised text (reader.behind demands) faults' ∧
      ∃ before, .ok reader.token :: (faults.map .error ++ reader.scans demands) =
        before ++ .ok (reader.behind demands).token :: faults'.map .error := by
  induction demands generalizing reader faults with
  | nil => exact ⟨faults, h, [], by rw [scans, List.append_nil]; rfl⟩
  | cons demand demands ih =>
      obtain ⟨middle, hm, before, he⟩ := h.meet demand
      obtain ⟨faults', hp, before', he'⟩ := ih hm
      refine ⟨faults', hp, before ++ before', ?_⟩
      rw [scans_cons, ← List.append_assoc, ← List.cons_append, he, List.append_assoc,
        List.cons_append, he', List.append_assoc]
      rfl

/-- Requests, failed ones included, leave a reader of a text like this. -/
theorem exists_poised_performAll {text : Text} {reader : Reader}
    (h : ofText text = .ok reader) (requests : List Request) :
    ∃ faults, Poised text (reader.performAll requests) faults := by
  obtain ⟨faults, hp, -⟩ := (poised_ofText h).behind (reader.allDemands requests)
  rw [performAll_eq]
  exact ⟨faults, hp⟩

/-! ## Requests -/

/-- The fault of the text with which an answer fails, if it does. -/
def lexical? {α : Type} : Except Fault α → Option Fault
  | .ok _ => none
  | .error fault => if fault.isLexical then some fault else none

theorem lexical?_eq_some_iff {α : Type} {answer : Except Fault α} {fault : Fault} :
    lexical? answer = some fault ↔ answer = .error fault ∧ fault.isLexical = true := by
  cases answer with
  | ok value => exact ⟨nofun, fun h => nomatch h.1⟩
  | error fault' =>
      rw [lexical?, Option.ite_none_right_eq_some]
      constructor
      · rintro ⟨hl, ⟨⟩⟩
        exact ⟨rfl, hl⟩
      · rintro ⟨⟨⟩, hl⟩
        exact ⟨hl, rfl⟩

/-- `Serves reader demands stop`: demands are made one after another, up to the first that fails.
If the lexer makes it fail, `stop` is its fault. -/
inductive Serves : Reader → List Demand → Option Fault → Prop where
  | nil {reader : Reader} : Serves reader [] none
  | unmet {reader : Reader} {demand : Demand} :
      reader.token.fits demand.kind demand.text = false →
      Serves reader [demand] none
  | unread {reader : Reader} {demand : Demand} {fault : Fault} {lexer : Lexer} :
      reader.token.fits demand.kind demand.text = true →
      reader.lexer.next = (.error fault, lexer) →
      Serves reader [demand] (some fault)
  | met {reader : Reader} {demand : Demand} {token : Token} {lexer : Lexer}
      {demands : List Demand} {stop : Option Fault} :
      reader.token.fits demand.kind demand.text = true →
      reader.lexer.next = (.ok token, lexer) →
      Serves ⟨token, lexer⟩ demands stop →
      Serves reader (demand :: demands) stop

theorem next_of_advance_error {reader left : Reader} {fault : Fault}
    (h : reader.advance = (.error fault, left)) :
    reader.lexer.next = (.error fault, left.lexer) := by
  rcases hn : reader.lexer.next with ⟨fault | token, lexer⟩
  · cases (advance_of_next_error hn).symm.trans h
    rfl
  · cases (advance_of_next hn).symm.trans h

theorem next_of_advance_ok {reader next : Reader} {token : Token}
    (h : reader.advance = (.ok token, next)) :
    reader.lexer.next = (.ok next.token, next.lexer) := by
  rcases hn : reader.lexer.next with ⟨fault | token, lexer⟩
  · cases (advance_of_next_error hn).symm.trans h
  · cases (advance_of_next hn).symm.trans h
    rfl

/-- Only the last of the readings can be a fault. -/
theorem Serves.exists_scans_eq {reader : Reader} {demands : List Demand} {stop : Option Fault}
    (h : Serves reader demands stop) :
    ∃ ts : List Token, reader.scans demands = ts.map .ok ++ (stop.map .error).toList := by
  induction h with
  | nil => exact ⟨[], rfl⟩
  | unmet hf => exact ⟨[], by rw [scans, hf]; rfl⟩
  | unread hf hn => exact ⟨[], by rw [scans, hf, hn]; rfl⟩
  | @met reader demand token lexer demands stop hf hn _ ih =>
      obtain ⟨ts, hs⟩ := ih
      refine ⟨token :: ts, ?_⟩
      rw [scans, meet_of_fits hf, advance_of_next hn, hs, hf, hn]
      rfl

/-- It is a fault in what follows the current token of the last demand. -/
theorem Serves.exists_last {reader : Reader} {demands : List Demand} {fault : Fault}
    (h : Serves reader demands (some fault)) :
    ∃ front demand, demands = front ++ [demand] ∧
      (reader.behind front).token.fits demand.kind demand.text = true ∧
      (reader.behind front).lexer.next.1 = .error fault := by
  generalize hstop : some fault = stop at h
  induction h with
  | nil => cases hstop
  | unmet _ => cases hstop
  | unread hf hn =>
      cases hstop
      exact ⟨[], _, rfl, hf, congrArg Prod.fst hn⟩
  | @met reader demand token lexer demands stop hf hn _ ih =>
      obtain ⟨front, last, rfl, hfits, he⟩ := ih hstop
      refine ⟨demand :: front, last, rfl, ?_⟩
      rw [behind, List.foldl_cons, meet_of_fits hf, advance_of_next hn]
      exact ⟨hfits, he⟩

end Reader

namespace State

/-- A fault of the text comes from the reading behind an accepted token. -/
theorem lexical?_of_done {limit : Option Nat} {state : State} {answer : Except Fault Int}
    {left : Reader} (h : state.step limit = .done answer left) :
    Reader.lexical? answer = none ∨ ∃ fault, state.reader.advance = (.error fault, left) := by
  have hc := steps limit state
  rw [h] at hc
  cases hc with
  | unread _ ha => exact Or.inr ⟨_, ha⟩
  | divided _ _ => exact Or.inl rfl
  | refused _ => exact Or.inl rfl
  | complete _ _ _ => exact Or.inl rfl
  | tooDeep _ _ => exact Or.inl rfl

theorem serves_of_done {limit : Option Nat} {state : State} {answer : Except Fault Int}
    {left : Reader} (h : state.step limit = .done answer left) :
    Reader.Serves state.reader (state.demand? limit).toList (Reader.lexical? answer) := by
  have hstop := lexical?_of_done h
  have hd := state.demands_step limit
  rw [h] at hd
  generalize state.demand? limit = demand? at hd
  generalize hturn : Turn.done answer left = turn at hd
  cases hd with
  | none =>
      cases hturn
      rcases hstop with hnone | ⟨fault, ha⟩
      · rw [hnone]
        exact .nil
      · -- the lexer moves with a fault, so the reader does not stay as it is
        have hn := Reader.next_of_advance_error ha
        have hlt := Lexer.next_rest_lt_of_error (congrArg Prod.fst hn)
        rw [hn] at hlt
        exact absurd hlt (Nat.lt_irrefl _)
  | @some demand proceed hp =>
      have hm := state.reader.meets demand
      generalize state.reader.scans [demand] = scans, state.reader.meet demand = reply at hm hturn
      cases hm with
      | unmet hf =>
          cases hturn
          exact .unmet hf
      | unread hf hn =>
          cases hturn
          rw [Reader.lexical?, if_pos (lexeme_fault (congrArg Prod.fst hn))]
          exact .unread hf hn
      | met hf hn =>
          rcases hstop with hnone | ⟨fault, ha⟩
          · rw [hnone]
            exact .met hf hn .nil
          · cases (Reader.advance_of_next hn).symm.trans ha

theorem serves_of_next {limit : Option Nat} {state next : State} {demands : List Demand}
    {stop : Option Fault} (h : state.step limit = .next next)
    (hs : Reader.Serves next.reader demands stop) :
    Reader.Serves state.reader ((state.demand? limit).toList ++ demands) stop := by
  have hd := state.demands_step limit
  rw [h] at hd
  generalize state.demand? limit = demand? at hd
  generalize hturn : Turn.next next = turn at hd
  cases hd with
  | none => cases hturn
  | @some demand proceed hp =>
      have hm := state.reader.meets demand
      generalize state.reader.scans [demand] = scans, state.reader.meet demand = reply at hm hturn
      cases hm with
      | unmet hf => cases hturn
      | unread hf hn => cases hturn
      | met hf hn =>
          have hr := (congrArg Turn.reader hturn).trans (hp _ _)
          rw [show next.reader = _ from hr] at hs
          exact .met hf hn hs

/-- A run makes its demands up to the first that fails. -/
theorem serves_run (limit : Option Nat) (state : State) :
    Reader.Serves state.reader (state.demands limit) (Reader.lexical? (state.run limit).1) := by
  fun_induction run limit state with
  | case1 state next hs ih =>
      rw [demands]
      split
      · rename_i hs'
        cases hs.symm.trans hs'
        exact serves_of_next hs ih
      · rename_i hs'
        cases hs.symm.trans hs'
  | case2 state answer reader hs =>
      rw [demands]
      split
      · rename_i hs'
        cases hs.symm.trans hs'
      · exact serves_of_done hs

end State

namespace Reader

/-- Whether a request fails with a fault. -/
def Fails (reader : Reader) (fault : Fault) : Request → Prop
  | .whole limit => (reader.wholeWithin limit).1 = .error fault
  | .phrase limit phrase => (reader.phraseWithin limit phrase).1 = .error fault
  | .accept demand => (reader.meet demand).1 = .error fault

theorem lexical?_wholeWithin (limit : Option Nat) (reader : Reader) :
    lexical? (reader.wholeWithin limit).1 = lexical? (reader.phraseWithin limit .expression).1 := by
  rw [wholeWithin]
  split
  · rename_i value last h
    rw [h]
    split
    · rfl
    · rfl
  · rename_i fault last h
    rw [h]

/-- A request makes its demands up to the first that fails.  Where this is because of the text, the
request fails with the same fault. -/
theorem serves_request (reader : Reader) (request : Request) :
    ∃ stop, Serves reader (reader.demands request) stop ∧
      ∀ fault, stop = some fault ↔ reader.Fails fault request ∧ fault.isLexical = true := by
  cases request with
  | whole limit =>
      have hs := State.serves_run limit (.start .expression reader)
      refine ⟨_, hs, fun fault => ?_⟩
      rw [show State.run limit _ = reader.phraseWithin limit .expression from rfl,
        ← lexical?_wholeWithin]
      exact lexical?_eq_some_iff
  | phrase limit phrase =>
      exact ⟨_, State.serves_run limit (.start phrase reader), fun _ => lexical?_eq_some_iff⟩
  | accept demand =>
      refine ⟨lexical? (reader.meet demand).1, ?_, fun _ => lexical?_eq_some_iff⟩
      have hm := reader.meets demand
      generalize reader.scans [demand] = scans, reader.meet demand = reply at hm
      cases hm with
      | unmet hf => exact .unmet hf
      | unread hf hn =>
          rw [lexical?, if_pos (lexeme_fault (congrArg Prod.fst hn))]
          exact .unread hf hn
      | met hf hn => exact .met hf hn .nil

/-- Every fault that a lexer has found for a reader was reported by a request. -/
theorem exists_fails_of_mem_scans {reader : Reader} {requests : List Request} {fault : Fault}
    (h : .error fault ∈ reader.scans (reader.allDemands requests)) :
    ∃ before request after, requests = before ++ request :: after ∧
      (reader.performAll before).Fails fault request := by
  induction requests generalizing reader with
  | nil => cases h
  | cons request requests ih =>
      rw [allDemands, scans_append, ← perform_eq] at h
      rcases List.mem_append.1 h with h | h
      · obtain ⟨stop, hs, hfails⟩ := reader.serves_request request
        obtain ⟨ts, he⟩ := hs.exists_scans_eq
        rw [he] at h
        refine ⟨[], request, requests, rfl, ((hfails fault).1 ?_).1⟩
        cases stop with
        | none => simp at h
        | some fault' => simpa [eq_comm] using h
      · obtain ⟨before, request', after, rfl, hfails⟩ := ih h
        exact ⟨request :: before, request', after, rfl, hfails⟩

end Reader

/-! ## The place of a reader -/

/-- Behind a string literal that never ends nothing is found but the end. -/
theorem Covers.forall_mem_dropLast {text : Text} {start stop : Nat} {faults : List Fault}
    (h : Covers text start (faults.map .error) stop) (hstop : stop ≤ text.length) :
    ∀ fault ∈ faults.dropLast, ∃ l c, fault = .unrecognizedCharacter l [c] := by
  generalize hf : faults.map (Except.error (α := Token)) = outcomes at h
  induction h generalizing faults with
  | nil =>
      cases List.map_eq_nil_iff.1 hf
      intro fault hm
      cases hm
  | space _ _ ih => exact ih hstop hf
  | @cons start middle stop outcome outcomes ht hc ih =>
      obtain ⟨first, rest, rfl, rfl, rfl⟩ := List.map_eq_cons_iff.1 hf
      by_cases hrest : rest = []
      · subst hrest
        intro fault hm
        cases hm
      · rw [List.dropLast_cons_of_ne_nil hrest]
        refine List.forall_mem_cons.2 ⟨?_, ih hstop rfl⟩
        cases ht with
        | stray _ _ => exact ⟨_, _, rfl⟩
        | unclosed _ _ _ =>
            obtain ⟨next, hm⟩ := List.exists_mem_of_ne_nil rest hrest
            have hlt := hc.lt ⟨.error next, List.mem_map_of_mem hm, by rintro ⟨_, he, -⟩; cases he⟩
            exact absurd hstop (Nat.not_le.2 hlt)

namespace Reader

/-- `Standing text scans reader`: a reader is at a place in a text, with the outcomes of all
readings so far. -/
structure Standing (text : Text) (scans : List (Except Fault Token)) (reader : Reader) :
    Prop where
  location_nonneg : 0 ≤ reader.token.location
  location_le : reader.token.location ≤ reader.token.stop
  stop_le : reader.token.stop ≤ reader.lexer.position
  position_le : reader.lexer.position ≤ text.length
  /-- The lexer stands directly behind the current token if that is what it read last. -/
  stop_eq : (∃ token, scans.getLast? = some (.ok token)) →
    reader.token.stop = reader.lexer.position
  /-- What it has passed since the current token are faults and spaces. -/
  between : ∃ before, ∃ faults : List Fault,
    scans = before ++ .ok reader.token :: faults.map .error ∧
    Covers text reader.token.stop.toNat (faults.map .error) reader.lexer.position ∧
    ∀ fault ∈ faults.dropLast, ∃ l c, fault = .unrecognizedCharacter l [c]

theorem Poised.standing {text : Text} {reader : Reader} {faults : List Fault}
    {before : List (Except Fault Token)} (h : Poised text reader faults) :
    reader.Standing text (before ++ .ok reader.token :: faults.map .error) := by
  obtain ⟨start, stop, ht, hc, hnil⟩ := h.takes
  have hstart := ht.token_location
  have hstop := ht.token_stop
  have hpos := h.stands.position_le
  refine ⟨?_, ?_, ?_, hpos, ?_, before, faults, rfl, ?_, hc.forall_mem_dropLast hpos⟩
  · rw [hstart]
    exact Int.natCast_nonneg start
  · rw [hstart, hstop]
    exact Int.ofNat_le.2 ht.le
  · rw [hstop]
    exact Int.ofNat_le.2 hc.le
  · rintro ⟨token, hlast⟩
    rcases faults.eq_nil_or_concat with rfl | ⟨front, fault, rfl⟩
    · rw [hstop, hnil rfl]
    · rw [List.concat_eq_append, List.map_append, ← List.cons_append, ← List.append_assoc,
        List.map_singleton, List.getLast?_concat] at hlast
      cases hlast
  · rw [hstop]
    exact hc

end Reader

end Calculator

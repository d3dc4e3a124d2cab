import Calculator.Proofs.Cutting
import Calculator.Proofs.Place
import Calculator.Proofs.Relocation

/-!
# Spaces between tokens

Spaces can be put anywhere but into a token, or into a string literal that never
ends.  Such a place is a `Gap`.  Nothing changes but the offsets of what stands
behind the new spaces, and a token that begins at the gap stands behind them.

There are two cases.  If no fault stops the scan in front of the gap, the text
is cut there.  The scan of the second part goes on behind the spaces, at a later
offset (`scan_spaced_of_cut`).  If there is such a fault, nothing behind it is
read, and it stays what it is (`Stops.spaced`).

What stands behind the first fault is never part of an answer, so `scan_spaced`
asks for nothing there.  But a gap is inside of no token that the lexer finds
when it goes on behind faults, either.
-/

namespace Calculator

/-- A text with some more spaces at an offset. -/
def spaced (k n : Nat) (text : Text) : Text :=
  text.take k ++ (List.replicate n ' ' ++ text.drop k)

/-- Where an offset is in a text with some more spaces. -/
def past (k n : Nat) (l : Int) : Int := if l < k then l else l + n

/-- An offset that is inside of nothing that the lexer takes off a text, behind faults included. -/
structure Gap (text : Text) (k : Nat) : Prop where
  le_length : k ≤ text.length
  not_inside : ∀ m, ∀ outcome ∈ (Lexer.ofText text).readings m, ∀ start stop,
    Takes text outcome start stop → ¬ (start < k ∧ k < stop)

theorem past_of_lt {k n : Nat} {l : Int} (h : l < k) : past k n l = l := if_pos h

theorem past_of_le {k n : Nat} {l : Int} (h : k ≤ l) : past k n l = l + n :=
  if_neg (Int.not_lt.2 h)

/-! ## Offsets that stay and offsets that move -/

theorem map_moved_past_of_lt {k n : Nat} {ts : List Token} (h : ∀ token ∈ ts, token.location < k) :
    ts.map (.moved (past k n)) = ts :=
  (List.map_congr_left fun token hm =>
    @Token.moved_congr _ id token (past_of_lt (h token hm))).trans (List.map_id ts)

theorem Fault.moved_past_of_lt {k n : Nat} {fault : Fault} (h : fault.location < k) :
    fault.moved (past k n) = fault :=
  (@moved_congr _ id fault (past_of_lt h)).trans fault.moved_id

theorem Takes.token_location {text : Text} {token : Token} {start stop : Nat}
    (h : Takes text (.ok token) start stop) : token.location = start := by
  cases h with
  | token hl _ _ _ => exact hl
  | endOfText => rfl

theorem Takes.token_stop {text : Text} {token : Token} {start stop : Nat}
    (h : Takes text (.ok token) start stop) : token.stop = stop := by
  cases h with
  | token _ hs _ _ => exact hs
  | endOfText => exact Int.add_zero _

theorem Takes.fault_location {text : Text} {fault : Fault} {start stop : Nat}
    (h : Takes text (.error fault) start stop) : fault.location = start := by
  cases h with
  | stray _ _ => rfl
  | unclosed _ _ _ => rfl

theorem Lexes.location_lt {position : Nat} {text : Text} {lexemes : List Token}
    (h : Lexes position text lexemes) :
    ∀ token ∈ lexemes, token.location < (position + text.length : Nat) := by
  induction h with
  | nil => exact nofun
  | space _ ih =>
      intro token hm
      have := ih token hm
      rw [List.length_cons]
      omega
  | @token position _ _ span rest _ hsp _ ih =>
      have hpos := List.length_pos_iff.2 hsp.span_ne_nil
      rw [List.length_append, ← Nat.add_assoc]
      exact List.forall_mem_cons.2 ⟨show (position : Int) < _ by omega, ih⟩

/-! ## What a gap is not inside of -/

theorem Gap.not_inside_token {text : Text} {k : Nat} {token : Token} (h : Gap text k)
    (hm : token ∈ (scan text).1) : ¬ (token.location < k ∧ (k : Int) < token.stop) := by
  obtain ⟨n, hn, -⟩ := @Lexer.exists_readings_drain (.ofText text) rfl
  obtain ⟨start, stop, -, -, ht⟩ := ((Lexer.stands_ofText text).exists_takes rfl).1 token hm
  have hr : Except.ok token ∈ (Lexer.ofText text).readings n := by
    rw [← hn]
    exact List.mem_append_left _ (List.mem_map_of_mem hm)
  have hout := h.not_inside n _ hr start stop ht
  rw [ht.token_location, ht.token_stop]
  omega

/-- A lexer that is finished finds nothing but the end of the text. -/
theorem Lexer.Stands.isEnd_of_finished {text : Text} {lexer : Lexer} (h : lexer.Stands text)
    (hf : lexer.finished = true) {m : Nat} {outcome : Except Fault Token}
    (hm : outcome ∈ lexer.readings m) : IsEnd outcome := by
  have hn := (h.ended hf).serve_token
  rw [serve, Prod.mk.injEq, Reply.token.injEq] at hn
  induction m with
  | zero => cases hm
  | succ m ih =>
      rw [readings, hn.1, hn.2] at hm
      rcases List.mem_cons.1 hm with rfl | hm
      · exact ⟨_, rfl, rfl⟩
      · exact ih hm

theorem Takes.eq_of_isEnd {text : Text} {outcome : Except Fault Token} {start stop : Nat}
    (h : Takes text outcome start stop) (he : IsEnd outcome) : start = stop := by
  obtain ⟨token, rfl, hk⟩ := he
  cases h with
  | token _ _ _ hsp => exact absurd hk hsp.kind_ne
  | endOfText => rfl

/-- Readings behind the end of the text find the end only. -/
theorem Lexer.Stands.isEnd_or_mem_readings {text : Text} {lexer : Lexer} (h : lexer.Stands text)
    {n m : Nat} (hf : (lexer.behind n).finished = true) {outcome : Except Fault Token}
    (hm : outcome ∈ lexer.readings m) : IsEnd outcome ∨ outcome ∈ lexer.readings n := by
  rcases Nat.le_total m n with hle | hle
  · obtain ⟨d, rfl⟩ := Nat.exists_eq_add_of_le hle
    rw [readings_add]
    exact Or.inr (List.mem_append_left _ hm)
  · obtain ⟨d, rfl⟩ := Nat.exists_eq_add_of_le hle
    rw [readings_add] at hm
    rcases List.mem_append.1 hm with hm | hm
    · exact Or.inr hm
    · exact Or.inl ((h.behind n).2.isEnd_of_finished hf hm)

/-- In a text without a fault a gap is any offset that is inside of none of its tokens. -/
theorem gap_of_tokens {text : Text} {ts : List Token} {k : Nat} (h : tokens text = .ok ts)
    (hk : k ≤ text.length)
    (hc : ∀ token ∈ ts, ¬ (token.location < k ∧ (k : Int) < token.stop)) : Gap text k := by
  have hscan : (Lexer.ofText text).scan = (ts, none) := tokens_eq_ok_iff.1 h
  obtain ⟨n, hn, -⟩ := @Lexer.exists_readings_drain (.ofText text) rfl
  rw [hscan, Option.map_none, Option.toList_none, List.append_nil] at hn
  have hend : ((Lexer.ofText text).behind n).finished = true := by
    obtain ⟨us, last, hl, hlast, -⟩ | ⟨_, _, hl, -⟩ := (Lexer.ofText text).scan_split
    · cases hscan.symm.trans hl
      rw [Lexer.behind_finished, ← hn]
      exact Or.inr ⟨.ok last, by simp, last, rfl, hlast⟩
    · cases hscan.symm.trans hl
  refine ⟨hk, fun m outcome hm start stop ht hin => ?_⟩
  rcases (Lexer.stands_ofText text).isEnd_or_mem_readings hend hm with he | hm
  · have := ht.eq_of_isEnd he
    omega
  · rw [← hn] at hm
    obtain ⟨token, htoken, rfl⟩ := List.mem_map.1 hm
    refine hc token htoken ?_
    rw [ht.token_location, ht.token_stop]
    omega

/-! ## Scans -/

theorem Lexer.scan_spaces (n position : Nat) (rest : Text) (finished : Bool) :
    scan ⟨position, List.replicate n ' ' ++ rest, finished⟩ =
      scan ⟨position + n, rest, finished⟩ := by
  induction n generalizing position with
  | zero => rfl
  | succ n ih =>
      rw [List.replicate_succ, List.cons_append, scan_space, ih, Nat.add_right_comm]
      rfl

/-- Where the part in front of an offset is read by itself, spaces behind it move the rest. -/
theorem scan_spaced_of_cut {front rest : Text} {us : List Token} (hx : Lexes 0 front us)
    (hs : scan (front ++ rest) = (us ++ (Lexer.scan ⟨front.length, rest, false⟩).1,
      (Lexer.scan ⟨front.length, rest, false⟩).2)) (n : Nat) :
    scan (front ++ (List.replicate n ' ' ++ rest)) =
      ((scan (front ++ rest)).1.map (.moved (past front.length n)),
        (scan (front ++ rest)).2.map (.moved (past front.length n))) := by
  have hstands : (Lexer.mk front.length rest false).Stands (front ++ rest) :=
    ⟨List.drop_left, by simp, nofun⟩
  obtain ⟨htokens, hfault⟩ := hstands.exists_takes rfl
  have hspaces : scan (front ++ (List.replicate n ' ' ++ rest)) =
      (us ++ (Lexer.scan ⟨front.length + n, rest, false⟩).1,
        (Lexer.scan ⟨front.length + n, rest, false⟩).2) := by
    -- Without a space the rest need not be detached, since it may begin with a digit.
    cases n with
    | zero => exact hs
    | succ n =>
        rw [List.replicate_succ, List.cons_append,
          scan_append_lexes hx (detached_cons (by decide) _), ← List.cons_append,
          ← List.replicate_succ, Lexer.scan_spaces]
  have hlater := Lexer.scan_later n ⟨front.length, rest, false⟩
  rw [Lexer.later] at hlater
  rw [hspaces, hlater, hs, List.map_append]
  refine Prod.ext (congrArg₂ (· ++ ·) ?_ ?_) ?_
  · refine (map_moved_past_of_lt fun token hm => ?_).symm
    have := hx.location_lt token hm
    rwa [Nat.zero_add] at this
  · refine List.map_congr_left fun token hm => ?_
    obtain ⟨start, stop, hle, -, ht⟩ := htokens token hm
    refine (Token.moved_congr (past_of_le ?_)).symm
    rw [ht.token_location]
    exact Int.ofNat_le.2 hle
  · refine Option.map_congr fun fault hm => ?_
    obtain ⟨start, stop, hle, -, ht⟩ := hfault fault hm
    refine (Fault.moved_congr (past_of_le ?_)).symm
    rw [ht.fault_location]
    exact Int.ofNat_le.2 hle

/-- An offset inside of no token, with no fault in front of it, cuts a text into two that are read
one by one. -/
theorem exists_cut_of_stops {front rest : Text} {lexemes : List Token} {stop : Option Fault}
    {k : Nat} (hx : Lexes 0 front lexemes) (hs : Stops front.length rest stop)
    (hk : k ≤ front.length)
    (hc : ∀ token ∈ lexemes, ¬ (token.location < k ∧ (k : Int) < token.stop)) :
    ∃ first second us, front ++ rest = first ++ second ∧ first.length = k ∧ Lexes 0 first us ∧
      scan (first ++ second) = (us ++ (Lexer.scan ⟨first.length, second, false⟩).1,
        (Lexer.scan ⟨first.length, second, false⟩).2) := by
  have hscan := scan_append_lexes hx hs.detached
  obtain ⟨first, second, us, vs, rfl, rfl, hlen, hu, hv⟩ :=
    hx.exists_cut (Nat.zero_le k) ((Nat.zero_add _).symm ▸ hk) hc
  rw [Nat.zero_add] at hlen
  refine ⟨first, second ++ rest, us, List.append_assoc .., hlen, hu, ?_⟩
  rw [← hlen] at hv
  rw [Lexer.scan_append_lexes hv hs.detached, ← List.append_assoc, hscan, List.length_append,
    List.append_assoc]

theorem mem_spaced {k n : Nat} {text : Text} {c : Char} (h : c ∈ spaced k n text) :
    c = ' ' ∨ c ∈ text := by
  rcases List.mem_append.1 h with h | h
  · exact Or.inr (List.mem_of_mem_take h)
  · rcases List.mem_append.1 h with h | h
    · exact Or.inl (List.eq_of_mem_replicate h)
    · exact Or.inr (List.mem_of_mem_drop h)

/-- Spaces behind the first character of a fault leave it where it is. -/
theorem Stops.spaced {location k : Nat} {rest : Text} {fault : Fault}
    (h : Stops location rest (some fault)) (n : Nat) :
    Stops location (spaced (k + 1) n rest) (some fault) := by
  cases h with
  | stray hc => exact .stray hc
  | @unclosed quote rest hq hn =>
      refine .unclosed hq fun hm => ?_
      rcases mem_spaced hm with rfl | hm
      · rcases hq with hq | hq <;> cases hq
      · exact hn hm

theorem spaced_append {front : Text} {k : Nat} (h : front.length ≤ k) (n : Nat) (rest : Text) :
    spaced k n (front ++ rest) = front ++ spaced (k - front.length) n rest := by
  rw [spaced, spaced, List.take_append, List.drop_append, List.take_of_length_le h,
    List.drop_of_length_le h, List.nil_append, List.append_assoc]

theorem Stops.exists_fault {location : Nat} {text : Text} {stop : Option Fault}
    (h : Stops location text stop) (hne : text ≠ []) : ∃ fault, stop = some fault := by
  cases h with
  | endOfText => exact absurd rfl hne
  | stray _ => exact ⟨_, rfl⟩
  | unclosed _ _ => exact ⟨_, rfl⟩

theorem Stops.fault_location {location : Nat} {text : Text} {fault : Fault}
    (h : Stops location text (some fault)) : fault.location = location := by
  cases h with
  | stray _ => rfl
  | unclosed _ _ => rfl

/-- Spaces behind a fault move nothing. -/
theorem scan_spaced_of_stops {front rest : Text} {lexemes : List Token} {fault : Fault} {k : Nat}
    (hx : Lexes 0 front lexemes) (hs : Stops front.length rest (some fault))
    (hk : front.length < k) (n : Nat) :
    scan (spaced k n (front ++ rest)) =
      ((scan (front ++ rest)).1.map (.moved (past k n)),
        (scan (front ++ rest)).2.map (.moved (past k n))) := by
  obtain ⟨j, rfl⟩ := Nat.exists_eq_add_of_lt hk
  have hj : front.length + j + 1 - front.length = j + 1 := by omega
  rw [scan_of_stops hx hs, spaced_append hk.le, hj, scan_of_stops hx (hs.spaced n)]
  refine Prod.ext (map_moved_past_of_lt fun token hm => ?_).symm (congrArg some ?_)
  · have := hx.location_lt token hm
    omega
  · refine (Fault.moved_past_of_lt ?_).symm
    rw [hs.fault_location]
    exact Int.ofNat_lt.2 hk

/-- Spaces that are not inside of a token move what stands behind them, and change nothing. -/
theorem scan_spaced {text : Text} {k : Nat} (hk : k ≤ text.length)
    (hc : ∀ token ∈ (scan text).1, ¬ (token.location < k ∧ (k : Int) < token.stop)) (n : Nat) :
    scan (spaced k n text) =
      ((scan text).1.map (.moved (past k n)), (scan text).2.map (.moved (past k n))) := by
  obtain ⟨front, rest, lexemes, rfl, hx, hs⟩ := exists_lexes_stops text
  rcases Nat.lt_or_ge front.length k with hlt | hle
  · have hne : rest ≠ [] := by
      rintro rfl
      rw [List.append_nil] at hk
      exact absurd hk (Nat.not_le.2 hlt)
    obtain ⟨fault, hf⟩ := hs.exists_fault hne
    rw [hf] at hs
    exact scan_spaced_of_stops hx hs hlt n
  · rw [scan_append_lexes hx hs.detached] at hc
    obtain ⟨first, second, us, htext, rfl, hu, hcut⟩ := exists_cut_of_stops hx hs hle
      fun token hm => hc token (List.mem_append_left _ hm)
    rw [htext, spaced, List.take_left, List.drop_left]
    exact scan_spaced_of_cut hu hcut n

/-! ## Answers -/

theorem tokens_of_scan_moved {text text' : Text} {move : Int → Int}
    (h : scan text' = ((scan text).1.map (.moved move), (scan text).2.map (.moved move))) :
    tokens text' = movedResult (List.map (.moved move)) move (tokens text) := by
  rw [tokens_eq_scan, tokens_eq_scan, h]
  cases (scan text).2 <;> rfl

theorem evaluateWithin_of_scan_moved {text text' : Text} {move : Int → Int}
    (h : scan text' = ((scan text).1.map (.moved move), (scan text).2.map (.moved move)))
    (limit : Option Nat) :
    evaluateWithin limit text' = (evaluateWithin limit text).mapError (.moved move) := by
  rw [evaluateWithin_eq_answer, evaluateWithin_eq_answer, h]
  exact Stack.answer_moved limit move (Stack.start .expression) _ _

/-- Spaces in a gap change no token, no value and no fault.  They only move what stands at the gap
or behind it. -/
theorem spaces_only_move {text : Text} {k : Nat} (h : Gap text k) (n : Nat) :
    tokens (spaced k n text) = movedResult (List.map (.moved (past k n))) (past k n) (tokens text) ∧
    evaluate (spaced k n text) = (evaluate text).mapError (.moved (past k n)) ∧
    ∀ fault : Fault, (fault.moved (past k n)).cause = fault.cause ∧
      (fault.moved (past k n)).summary = fault.summary ∧
      (fault.moved (past k n)).width = fault.width ∧
      (fault.moved (past k n)).location = past k n fault.location := by
  have hs := scan_spaced h.le_length (fun _ => h.not_inside_token) n
  refine ⟨tokens_of_scan_moved hs, evaluateWithin_of_scan_moved hs (some openLimit), ?_⟩
  exact fun fault => ⟨fault.moved_cause _, fault.moved_summary _, fault.moved_width _,
    fault.moved_location _⟩

/-- Also inside of a calculation that fails, and at the front of the token to report. -/
theorem spaces_only_move_division :
    Gap "10/0-1".toList 2 ∧ spaced 2 3 "10/0-1".toList = "10   /0-1".toList ∧
    evaluate "10/0-1".toList = .error (.divisionByZero ⟨.punctuator, ['/'], 2, 1⟩) ∧
    evaluate "10   /0-1".toList = .error (.divisionByZero ⟨.punctuator, ['/'], 5, 1⟩) := by
  have hgap : Gap "10/0-1".toList 2 := by
    have ht : tokens "10/0-1".toList =
        .ok [.lexeme .numeric ['1', '0'] 0, .lexeme .punctuator ['/'] 2, .lexeme .numeric ['0'] 3,
          .lexeme .punctuator ['-'] 4, .lexeme .numeric ['1'] 5, .endOfText 6] :=
      tokens_eq_ok_iff.2 (by decide +kernel)
    exact gap_of_tokens ht (by decide) (by decide)
  have he : evaluate "10/0-1".toList = .error (.divisionByZero ⟨.punctuator, ['/'], 2, 1⟩) := by
    with_unfolding_all rfl
  have hs := (spaces_only_move hgap 3).2.1
  rw [he] at hs
  exact ⟨hgap, rfl, he, hs⟩

end Calculator

import Calculator.Proofs.LexicalFault

/-!
# What a lexer has covered

A lexer can be asked for the next token, for the next step of going through the
tokens, or for all the rest, in any order and also behind a fault.  Each request
makes some readings (`Lexer.exists_readings`), and each reading takes what it
found off the front of the text (`Takes`), behind single spaces.

So the readings of a session, those included that a failing request for the rest
left out of its reply, cover the text up to the cursor without a gap and without
an overlap, in order (`Covers`).  A reading that found something moves the
cursor.  A lexer is finished when it has replied with the token at the end of
the text.  Then the cursor is there, and no request moves it any more.
-/

namespace Calculator

/-! ## Parts of a text -/

/-- `Takes text outcome start stop`: what a reading found lies between two offsets of a text. -/
inductive Takes (text : Text) : Except Fault Token → Nat → Nat → Prop where
  | token {token : Token} {start stop : Nat} :
      token.location = start →
      token.stop = stop →
      start < stop →
      Spells token.kind token.text (token.span text) (token.behind text) →
      Takes text (.ok token) start stop
  /-- The token at the end takes nothing. -/
  | endOfText : Takes text (.ok (.endOfText text.length)) text.length text.length
  /-- A character that begins no token is taken alone. -/
  | stray {c : Char} {start : Nat} :
      text[start]? = some c →
      Stray c →
      Takes text (.error (.unrecognizedCharacter start [c])) start (start + 1)
  /-- A quote that is not matched is taken with all that stands behind it. -/
  | unclosed {quote : Char} {start : Nat} :
      text[start]? = some quote →
      quote = '\'' ∨ quote = '"' →
      quote ∉ text.drop (start + 1) →
      Takes text (.error (.unterminatedLiteral start)) start text.length

/-- `Covers text start outcomes stop`: between two offsets of a text each character is part of
what one of the outcomes takes, in order, or it is a space. -/
inductive Covers (text : Text) : Nat → List (Except Fault Token) → Nat → Prop where
  | nil {offset : Nat} : Covers text offset [] offset
  | space {start stop : Nat} {outcomes : List (Except Fault Token)} :
      text[start]? = some ' ' →
      Covers text (start + 1) outcomes stop →
      Covers text start outcomes stop
  | cons {start middle stop : Nat} {outcome : Except Fault Token}
      {outcomes : List (Except Fault Token)} :
      Takes text outcome start middle →
      Covers text middle outcomes stop →
      Covers text start (outcome :: outcomes) stop

/-- Whether a reading found the end of the text. -/
def IsEnd (outcome : Except Fault Token) : Prop :=
  ∃ token, outcome = .ok token ∧ token.kind = .endOfText

theorem Reading.atEnd_iff (reading : Reading) : reading.atEnd = true ↔ IsEnd reading.outcome := by
  rw [atEnd]
  cases reading.outcome with
  | error fault => simp [IsEnd]
  | ok token => simp [IsEnd]

theorem Takes.le {text : Text} {outcome : Except Fault Token} {start stop : Nat}
    (h : Takes text outcome start stop) : start ≤ stop := by
  cases h with
  | token _ _ hlt _ => exact Nat.le_of_lt hlt
  | endOfText => exact Nat.le_refl _
  | stray _ _ => exact Nat.le_succ _
  | unclosed hc _ _ => exact Nat.le_of_lt (List.getElem?_eq_some_iff.1 hc).1

/-- What is found and is not the end of the text takes characters. -/
theorem Takes.lt {text : Text} {outcome : Except Fault Token} {start stop : Nat}
    (h : Takes text outcome start stop) (he : ¬ IsEnd outcome) : start < stop := by
  cases h with
  | token _ _ hlt _ => exact hlt
  | endOfText => exact absurd ⟨_, rfl, rfl⟩ he
  | stray _ _ => exact Nat.lt_succ_self _
  | unclosed hc _ _ => exact (List.getElem?_eq_some_iff.1 hc).1

theorem Covers.le {text : Text} {outcomes : List (Except Fault Token)} {start stop : Nat}
    (h : Covers text start outcomes stop) : start ≤ stop := by
  induction h with
  | nil => exact Nat.le_refl _
  | space _ _ ih => exact Nat.le_of_succ_le ih
  | cons ht _ ih => exact Nat.le_trans ht.le ih

theorem Covers.lt {text : Text} {outcomes : List (Except Fault Token)} {start stop : Nat}
    (h : Covers text start outcomes stop) (he : ∃ outcome ∈ outcomes, ¬ IsEnd outcome) :
    start < stop := by
  induction h with
  | nil => obtain ⟨_, hm, -⟩ := he; cases hm
  | space _ hc _ => exact hc.le
  | cons ht hc ih =>
      obtain ⟨outcome, hm, he⟩ := he
      rcases List.mem_cons.1 hm with rfl | hm
      · exact Nat.lt_of_lt_of_le (ht.lt he) hc.le
      · exact Nat.lt_of_le_of_lt ht.le (ih ⟨outcome, hm, he⟩)

theorem Covers.append {text : Text} {first second : List (Except Fault Token)}
    {start middle stop : Nat} (h : Covers text start first middle)
    (h' : Covers text middle second stop) : Covers text start (first ++ second) stop := by
  induction h with
  | nil => exact h'
  | space hc _ ih => exact .space hc (ih h')
  | cons ht _ ih => exact .cons ht (ih h')

/-- A reading takes what it finds off the text, behind spaces. -/
theorem Reads.takes {text rest : Text} {position : Nat} {reading : Reading}
    (h : Reads position rest reading) (hr : text.drop position = rest)
    (hp : position ≤ text.length) :
    (∃ start, Covers text position [] start ∧ Takes text reading.outcome start reading.position) ∧
      text.drop reading.position = reading.rest ∧ reading.position ≤ text.length := by
  induction h with
  | @space position rest reading _ ih =>
      obtain ⟨hc, hd⟩ := drop_eq_cons_iff.1 hr
      obtain ⟨⟨start, hcov, ht⟩, hrest⟩ := ih hd (List.getElem?_eq_some_iff.1 hc).1
      exact ⟨⟨start, .space hc hcov, ht⟩, hrest⟩
  | @endOfText position =>
      have hend : position = text.length := Nat.le_antisymm hp (List.drop_eq_nil_iff.1 hr)
      subst hend
      exact ⟨⟨_, .nil, .endOfText⟩, hr, hp⟩
  | token hsp =>
      have hlt := List.length_pos_iff.2 hsp.span_ne_nil
      have hle := add_length_le_of_drop_eq_append hsp.span_ne_nil hr
      exact ⟨⟨_, .nil, .token rfl rfl (Nat.lt_add_of_pos_right hlt) (hsp.spelled hr)⟩,
        drop_of_drop_eq_append hr, hle⟩
  | @stray position c rest hc =>
      obtain ⟨hget, hd⟩ := drop_eq_cons_iff.1 hr
      exact ⟨⟨_, .nil, .stray hget hc⟩, hd, (List.getElem?_eq_some_iff.1 hget).1⟩
  | @unclosed position quote rest hq hn =>
      obtain ⟨hget, rfl⟩ := drop_eq_cons_iff.1 hr
      have hlt := (List.getElem?_eq_some_iff.1 hget).1
      have hend : position + 1 + (text.drop (position + 1)).length = text.length := by
        rw [List.length_drop]
        omega
      rw [hend]
      exact ⟨⟨_, .nil, .unclosed hget hq hn⟩, List.drop_length, Nat.le_refl _⟩

/-! ## Readings one after another -/

namespace Lexer

/-- The outcomes of the first readings of a lexer. -/
def readings : Nat → Lexer → List (Except Fault Token)
  | 0, _ => []
  | n + 1, lexer => lexer.next.1 :: readings n lexer.next.2

/-- The lexer behind its first readings. -/
def behind : Nat → Lexer → Lexer
  | 0, lexer => lexer
  | n + 1, lexer => behind n lexer.next.2

theorem next_finished (lexer : Lexer) :
    lexer.next.2.finished = true ↔ lexer.finished = true ∨ IsEnd lexer.next.1 :=
  Bool.or_eq_true_iff.trans (or_congr Iff.rfl (Reading.atEnd_iff _))

/-- A lexer is at its place in a text. -/
structure Stands (text : Text) (lexer : Lexer) : Prop where
  drop_eq : text.drop lexer.position = lexer.rest
  position_le : lexer.position ≤ text.length
  /-- What is finished has nothing left. -/
  rest_eq_nil : lexer.finished = true → lexer.rest = []

theorem stands_ofText (text : Text) : (ofText text).Stands text :=
  ⟨List.drop_zero, Nat.zero_le _, nofun⟩

/-- What a lexer finds next is taken off the text, behind spaces. -/
theorem Stands.next_takes {text : Text} {lexer : Lexer} (h : lexer.Stands text) :
    ∃ start, Covers text lexer.position [] start ∧
      Takes text lexer.next.1 start lexer.next.2.position :=
  ((lexeme_reads lexer.position lexer.rest).takes h.drop_eq h.position_le).1

theorem Stands.next {text : Text} {lexer : Lexer} (h : lexer.Stands text) :
    Covers text lexer.position [lexer.next.1] lexer.next.2.position ∧ lexer.next.2.Stands text := by
  obtain ⟨start, hc, ht⟩ := h.next_takes
  obtain ⟨-, hd, hp⟩ := (lexeme_reads lexer.position lexer.rest).takes h.drop_eq h.position_le
  refine ⟨hc.append (.cons ht .nil), hd, hp, ?_⟩
  intro hf
  show (lexeme lexer.position lexer.rest).rest = []
  rcases lexer.next_finished.1 hf with hf | he
  · rw [h.rest_eq_nil hf]
    rfl
  · exact lexeme_rest_eq_nil ((Reading.atEnd_iff _).2 he)

/-- Readings cover what they go through. -/
theorem Stands.behind {text : Text} {lexer : Lexer} (h : lexer.Stands text) (n : Nat) :
    Covers text lexer.position (lexer.readings n) (lexer.behind n).position ∧
      (lexer.behind n).Stands text := by
  induction n generalizing lexer with
  | zero => exact ⟨.nil, h⟩
  | succ n ih =>
      obtain ⟨hc, hn⟩ := h.next
      obtain ⟨hcs, hb⟩ := ih hn
      exact ⟨hc.append hcs, hb⟩

/-- A lexer is finished when one of its readings has found the end. -/
theorem behind_finished (lexer : Lexer) (n : Nat) :
    (lexer.behind n).finished = true ↔
      lexer.finished = true ∨ ∃ outcome ∈ lexer.readings n, IsEnd outcome := by
  induction n generalizing lexer with
  | zero => simp [behind, readings]
  | succ n ih =>
      simp only [behind, ih, next_finished, readings, List.mem_cons, exists_eq_or_imp, or_assoc]

theorem readings_add (lexer : Lexer) (m n : Nat) :
    lexer.readings (m + n) = lexer.readings m ++ (lexer.behind m).readings n := by
  induction m generalizing lexer with
  | zero => rw [Nat.zero_add]; rfl
  | succ m ih => rw [Nat.succ_add, readings, ih]; rfl

theorem behind_add (lexer : Lexer) (m n : Nat) :
    lexer.behind (m + n) = (lexer.behind m).behind n := by
  induction m generalizing lexer with
  | zero => rw [Nat.zero_add]; rfl
  | succ m ih => rw [Nat.succ_add, behind, ih]; rfl

/-! ## Requests -/

/-- What a lexer can be asked for. -/
inductive Request where
  /-- The next token, whatever came before. -/
  | token
  /-- The next step of going through the tokens. -/
  | step
  /-- All tokens that are left to go through. -/
  | rest

/-- What a lexer replies. -/
inductive Reply where
  | token (outcome : Except Fault Token)
  /-- There are no more tokens to go through. -/
  | stop
  | rest (outcome : Except Fault (List Token))

/-- The outcomes that a reply shows. -/
def Reply.shown : Reply → List (Except Fault Token)
  | token outcome => [outcome]
  | stop => []
  | rest (.ok tokens) => tokens.map .ok
  | rest (.error fault) => [.error fault]

/-- Does what a request asks for. -/
def serve (lexer : Lexer) : Request → Reply × Lexer
  | .token => (.token lexer.next.1, lexer.next.2)
  | .step => (lexer.step.1.elim .stop .token, lexer.step.2)
  | .rest => (.rest lexer.drain.1, lexer.drain.2)

/-- The outcomes of the readings for a request, whether or not the reply shows them. -/
def outcomes (lexer : Lexer) : Request → List (Except Fault Token)
  | .token => [lexer.next.1]
  | .step => if lexer.finished then [] else [lexer.next.1]
  | .rest =>
      if lexer.finished then [] else lexer.scan.1.map .ok ++ (lexer.scan.2.map .error).toList

/-- Collecting the tokens makes the readings of a scan. -/
theorem exists_readings_drain {lexer : Lexer} (h : lexer.finished = false) :
    ∃ n, lexer.scan.1.map .ok ++ (lexer.scan.2.map .error).toList = lexer.readings n ∧
      lexer.drain.2 = lexer.behind n := by
  fun_induction scan lexer with
  | case1 lexer fault hn =>
      refine ⟨1, by rw [readings, hn]; rfl, ?_⟩
      rw [drain, dif_neg (by simp [h]), hn]
      rfl
  | case2 lexer token hn hk =>
      have hf : lexer.next.2.finished = true := lexer.next_finished.2 (Or.inr ⟨token, hn, hk⟩)
      refine ⟨1, by rw [readings, hn]; rfl, ?_⟩
      rw [drain, dif_neg (by simp [h]), hn]
      show (drain lexer.next.2).2 = lexer.next.2
      rw [drain, dif_pos hf]
  | case3 lexer token hn hk ih =>
      have hf : lexer.next.2.finished = false := by
        rw [← Bool.not_eq_true, next_finished, h, hn]
        rintro (hf | ⟨_, ht, hk'⟩)
        · cases hf
        · cases ht
          exact hk hk'
      obtain ⟨n, ho, hl⟩ := ih hf
      refine ⟨n + 1, ?_, ?_⟩
      · rw [readings, hn, ← ho]
        rfl
      · rw [drain, dif_neg (by simp [h]), hn]
        exact hl

/-- Each request makes some readings. -/
theorem exists_readings (lexer : Lexer) (request : Request) :
    ∃ n, lexer.outcomes request = lexer.readings n ∧ (lexer.serve request).2 = lexer.behind n := by
  cases hf : lexer.finished with
  | true =>
      cases request with
      | token => exact ⟨1, rfl, rfl⟩
      | step => exact ⟨0, if_pos hf, by rw [serve, step, if_pos hf]; rfl⟩
      | rest => exact ⟨0, if_pos hf, by rw [serve, drain, dif_pos hf]; rfl⟩
  | false =>
      cases request with
      | token => exact ⟨1, rfl, rfl⟩
      | step => exact ⟨1, by rw [outcomes, hf]; rfl, by rw [serve, step, hf]; rfl⟩
      | rest =>
          obtain ⟨n, ho, hl⟩ := exists_readings_drain hf
          exact ⟨n, by rw [outcomes, hf]; exact ho, hl⟩

/-- The readings for a request are those that the reply shows, behind tokens that a failing one
leaves out. -/
theorem exists_left_out (lexer : Lexer) (request : Request) :
    ∃ ts : List Token, lexer.outcomes request = ts.map .ok ++ (lexer.serve request).1.shown ∧
      ∀ token ∈ ts, token.kind ≠ .endOfText := by
  cases hf : lexer.finished with
  | true =>
      refine ⟨[], ?_, nofun⟩
      cases request with
      | token => rfl
      | step => rw [outcomes, serve, step, hf]; rfl
      | rest => rw [outcomes, serve, drain, dif_pos hf, hf]; rfl
  | false =>
      cases request with
      | token => exact ⟨[], rfl, nofun⟩
      | step => exact ⟨[], by rw [outcomes, serve, step, hf]; rfl, nofun⟩
      | rest =>
          rw [outcomes, serve, drain_eq_scan hf, hf]
          rcases lexer.scan_split with ⟨ts, last, hs, -, -⟩ | ⟨ts, fault, hs, hk⟩
          · rw [hs]
            exact ⟨[], List.append_nil _, nofun⟩
          · rw [hs]
            exact ⟨ts, rfl, hk⟩

/-- A reply shows the end of the text if a reading has found it. -/
theorem exists_isEnd_iff (lexer : Lexer) (request : Request) :
    (∃ outcome ∈ lexer.outcomes request, IsEnd outcome) ↔
      ∃ outcome ∈ (lexer.serve request).1.shown, IsEnd outcome := by
  obtain ⟨ts, ho, hk⟩ := lexer.exists_left_out request
  rw [ho]
  constructor
  · rintro ⟨outcome, hm, he⟩
    rcases List.mem_append.1 hm with hm | hm
    · obtain ⟨token, ht, rfl⟩ := List.mem_map.1 hm
      obtain ⟨_, heq, he⟩ := he
      cases heq
      exact absurd he (hk _ ht)
    · exact ⟨outcome, hm, he⟩
  · rintro ⟨outcome, hm, he⟩
    exact ⟨outcome, List.mem_append_right _ hm, he⟩

/-! ## Sessions -/

/-- A lexer with all that it has replied and read. -/
structure Session where
  lexer : Lexer
  replies : List Reply
  outcomes : List (Except Fault Token)

namespace Session

/-- A lexer at the start of a text. -/
def start (text : Text) : Session := ⟨ofText text, [], []⟩

/-- One more request. -/
def ask (session : Session) (request : Request) : Session :=
  ⟨(session.lexer.serve request).2, session.replies ++ [(session.lexer.serve request).1],
    session.outcomes ++ session.lexer.outcomes request⟩

/-- Requests in order, from the start of a text. -/
def run (text : Text) (requests : List Request) : Session := requests.foldl ask (start text)

/-- What holds between any two requests. -/
structure Sound (text : Text) (session : Session) : Prop where
  /-- What was read is what reading token by token gives. -/
  readings : ∃ n, session.outcomes = (ofText text).readings n ∧
    session.lexer = (ofText text).behind n
  position_le : session.lexer.position ≤ text.length
  /-- What was read covers the text up to the cursor. -/
  covers : Covers text 0 session.outcomes session.lexer.position
  /-- A lexer is finished when a reply was the token at the end. -/
  finished_iff : session.lexer.finished = true ↔
    ∃ reply ∈ session.replies, ∃ outcome ∈ reply.shown, IsEnd outcome

theorem sound_of_readings {text : Text} {session : Session} {n : Nat}
    (ho : session.outcomes = (ofText text).readings n)
    (hl : session.lexer = (ofText text).behind n)
    (hf : session.lexer.finished = true ↔
      ∃ reply ∈ session.replies, ∃ outcome ∈ reply.shown, IsEnd outcome) :
    session.Sound text := by
  obtain ⟨hc, hs⟩ := (stands_ofText text).behind n
  rw [← ho, ← hl] at hc
  rw [← hl] at hs
  exact ⟨⟨n, ho, hl⟩, hs.position_le, hc, hf⟩

theorem Sound.stands {text : Text} {session : Session} (h : session.Sound text) :
    session.lexer.Stands text := by
  obtain ⟨n, -, hl⟩ := h.readings
  rw [hl]
  exact ((stands_ofText text).behind n).2

theorem sound_start (text : Text) : (start text).Sound text :=
  @sound_of_readings text (start text) 0 rfl rfl (by simp [start, ofText])

/-- A request goes on where the session is. -/
theorem Sound.ask {text : Text} {session : Session} (h : session.Sound text)
    (request : Request) : (session.ask request).Sound text := by
  obtain ⟨n, hn, hl⟩ := h.readings
  obtain ⟨m, hm, hs⟩ := session.lexer.exists_readings request
  refine @sound_of_readings text (session.ask request) (n + m) ?_ ?_ ?_
  · rw [readings_add, ← hl, ← hm, ← hn]
    rfl
  · rw [behind_add, ← hl, ← hs]
    rfl
  · have he := session.lexer.exists_isEnd_iff request
    rw [hm] at he
    simp only [Session.ask, hs, behind_finished, h.finished_iff, he, List.mem_append,
      List.mem_singleton, or_and_right, exists_or, exists_eq_left]

theorem Sound.foldl_ask {text : Text} {session : Session} (h : session.Sound text)
    (requests : List Request) : (requests.foldl Session.ask session).Sound text := by
  induction requests generalizing session with
  | nil => exact h
  | cons request requests ih => exact ih (h.ask request)

theorem sound_run (text : Text) (requests : List Request) : (run text requests).Sound text :=
  (sound_start text).foldl_ask requests

/-- What one more request does. -/
structure Advances (session : Session) (request : Request) : Prop where
  /-- What is read for it is what the reply shows, behind tokens that a failing one leaves out. -/
  outcomes_eq : ∃ ts : List Token, (session.ask request).outcomes =
    session.outcomes ++ (ts.map .ok ++ (session.lexer.serve request).1.shown)
  position_le : session.lexer.position ≤ (session.ask request).lexer.position
  /-- A token other than the one at the end, or a fault, moves the cursor. -/
  position_lt : (∃ outcome ∈ (session.lexer.serve request).1.shown, ¬ IsEnd outcome) →
    session.lexer.position < (session.ask request).lexer.position

theorem Sound.advances {text : Text} {session : Session} (h : session.Sound text)
    (request : Request) : session.Advances request := by
  obtain ⟨n, hn, hs⟩ := session.lexer.exists_readings request
  obtain ⟨ts, ho, -⟩ := session.lexer.exists_left_out request
  have hc := (h.stands.behind n).1
  rw [← hn, ← hs, ho] at hc
  refine ⟨⟨ts, congrArg (session.outcomes ++ ·) ho⟩, hc.le, ?_⟩
  rintro ⟨outcome, hm, he⟩
  exact hc.lt ⟨outcome, List.mem_append_right _ hm, he⟩

end Session

/-- What a lexer does at the end of a text. -/
structure Ended (text : Text) (lexer : Lexer) : Prop where
  position_eq : lexer.position = text.length
  /-- The token at the end comes again and again. -/
  serve_token : lexer.serve .token = (.token (.ok (.endOfText text.length)), lexer)
  serve_step : lexer.serve .step = (.stop, lexer)
  serve_rest : lexer.serve .rest = (.rest (.ok []), lexer)

theorem Stands.ended {text : Text} {lexer : Lexer} (h : lexer.Stands text)
    (hf : lexer.finished = true) : lexer.Ended text := by
  have hr := h.rest_eq_nil hf
  have hp : lexer.position = text.length :=
    Nat.le_antisymm h.position_le (List.drop_eq_nil_iff.1 (h.drop_eq.trans hr))
  refine ⟨hp, ?_, ?_, ?_⟩
  · obtain ⟨position, rest, finished⟩ := lexer
    cases hr
    cases hf
    cases hp
    rfl
  · rw [serve, step, if_pos hf]
    rfl
  · rw [serve, drain, dif_pos hf]

end Lexer

/-- Whatever is asked of a lexer, what it has read covers the text up to its cursor. -/
theorem session_covers (text : Text) (requests : List Lexer.Request) :
    (Lexer.Session.run text requests).Sound text ∧
    (∀ request, (Lexer.Session.run text requests).Advances request) ∧
    ((Lexer.Session.run text requests).lexer.finished = true →
      (Lexer.Session.run text requests).lexer.Ended text) := by
  have h := Lexer.Session.sound_run text requests
  exact ⟨h, h.advances, h.stands.ended⟩

end Calculator

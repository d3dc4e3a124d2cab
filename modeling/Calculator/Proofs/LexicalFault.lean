import Calculator.Proofs.Tiling

/-!
# Faults of the text

A text has tokens unless there is a character at which none can be read: one
that begins no token, or a quote that is not matched by another one behind it.
Up to this character the text has tokens, so the fault lies at the first such
character between two tokens.  A quote or a stray character inside of a string
literal is none.

How the tokens in front are read is the same whether the text goes on with the
offending character or ends there.  A numeral or a punctuator could look at this
one character, and it would continue neither (`scan_of_stops`).
-/

namespace Calculator

/-! ## Where a scan stops -/

/-- Nothing that a scan stops at continues a lexeme. -/
theorem Stops.detached {location : Nat} {text : Text} {stop : Option Fault}
    (h : Stops location text stop) : Detached text := by
  cases h with
  | endOfText => exact detached_nil
  | stray hc =>
      have hp := hc.not_punctuator
      simp only [List.mem_cons, not_or] at hp
      exact detached_cons ⟨hc.not_digit, hp.2.2.2.2.1, hp.2.2.2.2.2.1⟩ _
  | unclosed hq _ => exact detached_cons (by rcases hq with rfl | rfl <;> decide) _

theorem Stops.exists_cons {location : Nat} {text : Text} {fault : Fault}
    (h : Stops location text (some fault)) : ∃ c rest, text = c :: rest := by
  cases h with
  | stray _ => exact ⟨_, _, rfl⟩
  | unclosed _ _ => exact ⟨_, _, rfl⟩

/-- A scan that stops at once. -/
theorem Stops.scan_eq {location : Nat} {text : Text} {stop : Option Fault}
    (h : Stops location text stop) (finished : Bool) :
    Lexer.scan ⟨location, text, finished⟩ =
      (stop.elim [.endOfText location] fun _ => [], stop) := by
  cases h with
  | endOfText => exact Lexer.scan_nil location finished
  | @stray c rest hc =>
      have hr := (@Reads.stray location c rest hc).eq_lexeme
      exact Lexer.scan_of_error (congrArg Reading.outcome hr)
  | @unclosed quote rest hq hn =>
      have hr := (@Reads.unclosed location quote rest hq hn).eq_lexeme
      exact Lexer.scan_of_error (congrArg Reading.outcome hr)

/-- The lexemes in front of a fault do not depend on what is there. -/
theorem scan_of_stops {front rest : Text} {lexemes : List Token} {fault : Fault}
    (h : Lexes 0 front lexemes) (hs : Stops front.length rest (some fault)) :
    scan (front ++ rest) = (lexemes, some fault) := by
  rw [scan_append_lexes h hs.detached, hs.scan_eq]
  exact congrArg (·, some fault) (List.append_nil lexemes)

/-- A text has tokens. -/
def Readable (text : Text) : Prop := ∃ ts, tokens text = .ok ts

theorem readable_iff_lexes {text : Text} : Readable text ↔ ∃ lexemes, Lexes 0 text lexemes := by
  constructor
  · rintro ⟨ts, ht⟩
    obtain ⟨lexemes, -, hl⟩ := tokens_eq_ok_iff_lexes.1 ht
    exact ⟨lexemes, hl⟩
  · rintro ⟨lexemes, hl⟩
    exact ⟨_, tokens_eq_ok_iff_lexes.2 ⟨lexemes, rfl, hl⟩⟩

/-- A fault stands where the tokens in front of it end. -/
theorem tokens_eq_error_iff_stops {text : Text} {fault : Fault} :
    tokens text = .error fault ↔
      ∃ l, Readable (text.take l) ∧ Stops l (text.drop l) (some fault) := by
  rw [tokens_eq_error_iff]
  constructor
  · intro h
    obtain ⟨front, rest, lexemes, rfl, hl, hs⟩ := exists_lexes_stops text
    rw [h] at hs
    refine ⟨front.length, ?_, ?_⟩
    · rw [List.take_left]
      exact readable_iff_lexes.2 ⟨lexemes, hl⟩
    · rwa [List.drop_left]
  · rintro ⟨l, hr, hs⟩
    obtain ⟨lexemes, hl⟩ := readable_iff_lexes.1 hr
    obtain ⟨c, rest, hc⟩ := hs.exists_cons
    have hlen : (text.take l).length = l := by
      have := congrArg List.length hc
      rw [List.length_drop, List.length_cons] at this
      rw [List.length_take]
      omega
    rw [hc, ← hlen] at hs
    have hscan := scan_of_stops hl hs
    rw [← hc, List.take_append_drop] at hscan
    exact congrArg Prod.snd hscan

/-! ## The two faults -/

theorem stops_stray_iff {location l : Nat} {text : Text} {c : Char} :
    Stops location text (some (.unrecognizedCharacter l [c])) ↔
      location = l ∧ Stray c ∧ ∃ rest, text = c :: rest := by
  constructor
  · intro h
    generalize hf : Fault.unrecognizedCharacter l [c] = fault at h
    cases h with
    | stray hc =>
        simp only [Fault.unrecognizedCharacter.injEq, Int.natCast_inj, List.cons.injEq] at hf
        obtain ⟨rfl, rfl, -⟩ := hf
        exact ⟨rfl, hc, _, rfl⟩
    | unclosed _ _ => cases hf
  · rintro ⟨rfl, hc, rest, rfl⟩
    exact .stray hc

theorem stops_unclosed_iff {location l : Nat} {text : Text} :
    Stops location text (some (.unterminatedLiteral l)) ↔
      location = l ∧ ∃ quote rest, text = quote :: rest ∧ (quote = '\'' ∨ quote = '"') ∧
        quote ∉ rest := by
  constructor
  · intro h
    generalize hf : Fault.unterminatedLiteral l = fault at h
    cases h with
    | stray _ => cases hf
    | unclosed hq hn =>
        simp only [Fault.unterminatedLiteral.injEq, Int.natCast_inj] at hf
        subst hf
        exact ⟨rfl, _, _, rfl, hq, hn⟩
  · rintro ⟨rfl, quote, rest, rfl, hq, hn⟩
    exact .unclosed hq hn

/-- Of three statements exactly one holds. -/
def ExactlyOne (a b c : Prop) : Prop := (a ∧ ¬ b ∧ ¬ c) ∨ (¬ a ∧ b ∧ ¬ c) ∨ (¬ a ∧ ¬ b ∧ c)

/-- A text has tokens, or a stray character between two of them, or a quote that is not matched,
and never two of these. -/
theorem tokens_fail_exactly (text : Text) :
    ExactlyOne (Readable text)
      (∃ (l : Nat) (c : Char), tokens text = .error (.unrecognizedCharacter l [c]))
      (∃ l : Nat, tokens text = .error (.unterminatedLiteral l)) ∧
    (∀ (l : Nat) (c : Char), tokens text = .error (.unrecognizedCharacter l [c]) ↔
      Readable (text.take l) ∧ text[l]? = some c ∧ Stray c) ∧
    ∀ l : Nat, tokens text = .error (.unterminatedLiteral l) ↔
      Readable (text.take l) ∧ ∃ quote, text[l]? = some quote ∧
        (quote = '\'' ∨ quote = '"') ∧ quote ∉ text.drop (l + 1) := by
  refine ⟨?_, fun l c => ?_, fun l => ?_⟩
  · rcases ht : tokens text with fault | ts
    · have hr : ¬ Readable text := by
        rintro ⟨ts, hts⟩
        cases ht.symm.trans hts
      obtain ⟨l, -, hs⟩ := tokens_eq_error_iff_stops.1 ht
      generalize text.drop l = rest at hs
      cases hs with
      | stray _ => exact Or.inr (Or.inl ⟨hr, ⟨l, _, rfl⟩, nofun⟩)
      | unclosed _ _ => exact Or.inr (Or.inr ⟨hr, nofun, l, rfl⟩)
    · exact Or.inl ⟨⟨ts, ht⟩, nofun, nofun⟩
  · simp only [tokens_eq_error_iff_stops, stops_stray_iff, drop_eq_cons_iff]
    constructor
    · rintro ⟨_, hr, rfl, hc, rest, hget, -⟩
      exact ⟨hr, hget, hc⟩
    · rintro ⟨hr, hget, hc⟩
      exact ⟨l, hr, rfl, hc, _, hget, rfl⟩
  · simp only [tokens_eq_error_iff_stops, stops_unclosed_iff, drop_eq_cons_iff]
    constructor
    · rintro ⟨_, hr, rfl, quote, rest, ⟨hget, rfl⟩, hq, hn⟩
      exact ⟨hr, quote, hget, hq, hn⟩
    · rintro ⟨hr, quote, hget, hq, hn⟩
      exact ⟨l, hr, rfl, quote, _, ⟨hget, rfl⟩, hq, hn⟩

end Calculator

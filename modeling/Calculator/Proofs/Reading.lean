import Mathlib.Data.List.TakeWhile
import Calculator.Token.Lexeme

/-!
# What one reading finds

`Spells` says what a span may be as a token, given what stands behind it: a
numeral that no digit continues, a punctuator that is not one half of a pair, or
a string literal.

`Reads` says what a reading at the front of a text is.  Behind the spaces stands
the end of the text, a span, a character that begins no token, or an opening
quote that is not matched.  These exclude each other, so each text has one
reading (`Reads.eq_lexeme`), and it is the one of the lexer (`lexeme_reads`).
-/

namespace Calculator

/-! ## Spans -/

/-- `Spells kind text span rest`: in front of `rest` the span is a token with this kind and text.
No span is the token at the end. -/
inductive Spells : Kind → Text → Text → Text → Prop where
  /-- A numeral takes in every digit. -/
  | numeral {digits rest : Text} :
      digits ≠ [] →
      (∀ c ∈ digits, c.isDigit = true) →
      (∀ c ∈ rest.head?, c.isDigit = false) →
      Spells .numeric digits digits rest
  | pair {c : Char} {rest : Text} :
      c = '&' ∨ c = '|' →
      Spells .punctuator [c, c] [c, c] rest
  /-- One of a pair does not stand alone. -/
  | single {c : Char} {rest : Text} :
      c ∈ ['+', '-', '*', '/', '&', '|', '(', ')'] →
      (c = '&' ∨ c = '|' → rest.head? ≠ some c) →
      Spells .punctuator [c] [c] rest
  /-- A string literal ends at the first quote of the sort that begins it. -/
  | literal {quote : Char} {text rest : Text} :
      quote = '\'' ∨ quote = '"' →
      quote ∉ text →
      Spells .stringLiteral text (quote :: (text ++ [quote])) rest

theorem Spells.kind_ne {kind : Kind} {text span rest : Text} (h : Spells kind text span rest) :
    kind ≠ .endOfText := by
  cases h <;> exact nofun

theorem Spells.span_ne_nil {kind : Kind} {text span rest : Text} (h : Spells kind text span rest) :
    span ≠ [] := by
  cases h with
  | numeral hne _ _ => exact hne
  | pair _ => exact List.cons_ne_nil _ _
  | single _ _ => exact List.cons_ne_nil _ _
  | literal _ _ => exact List.cons_ne_nil _ _

theorem Spells.length_lt {kind : Kind} {text span rest : Text} (h : Spells kind text span rest) :
    rest.length < (span ++ rest).length := by
  have := List.length_pos_iff.2 h.span_ne_nil
  rw [List.length_append]
  omega

/-- What a span spells depends on the first character behind it alone, and not on which one it is
if it could continue neither a numeral nor a punctuator. -/
theorem Spells.of_head? {kind : Kind} {text span rest rest' : Text}
    (h : Spells kind text span rest)
    (hr : ∀ c ∈ rest'.head?, c ∈ rest.head? ∨ c.isDigit = false ∧ c ≠ '&' ∧ c ≠ '|') :
    Spells kind text span rest' := by
  cases h with
  | numeral hne hd hrest =>
      refine .numeral hne hd ?_
      intro c hc
      rcases hr c hc with hc | ⟨hdigit, -⟩
      · exact hrest c hc
      · exact hdigit
  | pair hc => exact .pair hc
  | single hc hrest =>
      refine .single hc ?_
      intro hpair hf
      rcases hr _ hf with hf | ⟨-, hand, hor⟩
      · exact hrest hpair hf
      · exact hpair.elim hand hor
  | literal hq hn => exact .literal hq hn

/-- What a span spells, it spells also where the text behind it is cut off. -/
theorem Spells.of_append {kind : Kind} {text span front rest : Text}
    (h : Spells kind text span (front ++ rest)) : Spells kind text span front := by
  refine h.of_head? ?_
  intro c hc
  obtain ⟨tail, rfl⟩ := List.head?_eq_some_iff.1 hc
  exact Or.inl rfl

/-! ## Reading a span -/

namespace Lexeme

theorem isQuote_iff {c : Char} : isQuote c = true ↔ c = '\'' ∨ c = '"' := by
  simp [isQuote]

theorem isPaired_iff {c : Char} : isPaired c = true ↔ c = '&' ∨ c = '|' := by
  simp [isPaired]

theorem isPunctuator_iff {c : Char} :
    isPunctuator c = true ↔ c ∈ ['+', '-', '*', '/', '&', '|', '(', ')'] := by
  simp only [isPunctuator, isPaired, Bool.or_eq_true, beq_iff_eq, List.mem_cons, List.not_mem_nil,
    or_false]
  grind

theorem literal_of_not_mem (position : Nat) {quote : Char} {body : Text} (h : quote ∉ body)
    (rest : Text) : literal position quote (body ++ quote :: rest) =
      ⟨.ok ⟨.stringLiteral, body, position, body.length + 2⟩, position + (body.length + 2), rest⟩ := by
  have hb : ∀ c ∈ body, (c != quote) = true := by
    intro c hc
    exact bne_iff_ne.2 fun he => h (he ▸ hc)
  rw [literal, List.takeWhile_append_of_pos hb, List.dropWhile_append_of_pos hb]
  simp

theorem literal_of_not_mem_all (position : Nat) {quote : Char} {text : Text} (h : quote ∉ text) :
    literal position quote text =
      ⟨.error (.unterminatedLiteral position), position + 1 + text.length, []⟩ := by
  have hb : ∀ c ∈ text, (c != quote) = true := by
    intro c hc
    exact bne_iff_ne.2 fun he => h (he ▸ hc)
  rw [literal, List.takeWhile_eq_self_iff.2 hb, List.dropWhile_eq_nil_iff.2 hb]

theorem numeral_of_isDigit (position : Nat) {digits rest : Text}
    (hd : ∀ c ∈ digits, c.isDigit = true) (hr : ∀ c ∈ rest.head?, c.isDigit = false) :
    numeral position (digits ++ rest) =
      ⟨.ok (.lexeme .numeric digits position), position + digits.length, rest⟩ := by
  have ht : rest.takeWhile Char.isDigit = [] ∧ rest.dropWhile Char.isDigit = rest := by
    cases rest with
    | nil => exact ⟨rfl, rfl⟩
    | cons c rest => simp [hr c rfl]
  rw [numeral, List.takeWhile_append_of_pos hd, List.dropWhile_append_of_pos hd, ht.1, ht.2,
    List.append_nil]

end Lexeme

theorem lexeme_quote (position : Nat) {c : Char} (h : c = '\'' ∨ c = '"') (rest : Text) :
    lexeme position (c :: rest) = Lexeme.literal position c rest := by
  have hs : c ≠ ' ' := by rcases h with rfl | rfl <;> decide
  rw [lexeme, if_neg hs, if_pos (Lexeme.isQuote_iff.2 h)]

theorem lexeme_punctuator (position : Nat) {c : Char} (h : Lexeme.isPunctuator c = true)
    (rest : Text) : lexeme position (c :: rest) = Lexeme.punctuator position c rest := by
  have hs : c ≠ ' ' := by
    rintro rfl
    cases h
  have hq : ¬ Lexeme.isQuote c = true := by
    rw [Lexeme.isQuote_iff]
    rintro (rfl | rfl) <;> cases h
  rw [lexeme, if_neg hs, if_neg hq, if_pos h]

/-- A digit is nothing else that a reading looks for. -/
theorem Lexeme.not_of_isDigit {c : Char} (h : c.isDigit = true) :
    c ≠ ' ' ∧ ¬ isQuote c = true ∧ ¬ isPunctuator c = true := by
  refine ⟨?_, ?_, ?_⟩
  · rintro rfl
    cases h
  · rw [isQuote_iff]
    rintro (rfl | rfl) <;> cases h
  · simp only [isPunctuator_iff, List.mem_cons, List.not_mem_nil, or_false]
    rintro (rfl | rfl | rfl | rfl | rfl | rfl | rfl | rfl) <;> cases h

theorem lexeme_digit (position : Nat) {c : Char} (h : c.isDigit = true) (rest : Text) :
    lexeme position (c :: rest) = Lexeme.numeral position (c :: rest) := by
  obtain ⟨hs, hq, hp⟩ := Lexeme.not_of_isDigit h
  rw [lexeme, if_neg hs, if_neg hq, if_neg hp, if_pos h]

/-- Each span is read as what it spells. -/
theorem lexeme_of_spells (position : Nat) {kind : Kind} {text span rest : Text}
    (h : Spells kind text span rest) : lexeme position (span ++ rest) =
      ⟨.ok ⟨kind, text, position, span.length⟩, position + span.length, rest⟩ := by
  cases h with
  | numeral hne hd hr =>
      obtain ⟨c, digits, rfl⟩ := List.exists_cons_of_ne_nil hne
      rw [List.cons_append, lexeme_digit position (hd c List.mem_cons_self), ← List.cons_append,
        Lexeme.numeral_of_isDigit position hd hr]
      rfl
  | @pair c rest hc =>
      have hp : Lexeme.isPunctuator c = true := by rcases hc with rfl | rfl <;> rfl
      rw [List.cons_append, lexeme_punctuator position hp]
      exact if_pos ⟨Lexeme.isPaired_iff.2 hc, rfl⟩
  | @single c rest hc hr =>
      rw [List.singleton_append, lexeme_punctuator position (Lexeme.isPunctuator_iff.2 hc)]
      exact if_neg fun h => hr (Lexeme.isPaired_iff.1 h.1) h.2
  | @literal quote body rest hq hn =>
      rw [List.cons_append, List.append_assoc, List.singleton_append, lexeme_quote position hq,
        Lexeme.literal_of_not_mem position hn]
      simp
      rfl

/-! ## Readings -/

/-- A character that begins no token and is no space. -/
structure Stray (c : Char) : Prop where
  ne_space : c ≠ ' '
  not_quote : c ∉ ['\'', '"']
  not_punctuator : c ∉ ['+', '-', '*', '/', '&', '|', '(', ')']
  not_digit : c.isDigit = false

/-- `Reads position text reading`: this is read at the front of a text that begins at an
offset. -/
inductive Reads : Nat → Text → Reading → Prop where
  | space {position : Nat} {rest : Text} {reading : Reading} :
      Reads (position + 1) rest reading →
      Reads position (' ' :: rest) reading
  | endOfText {position : Nat} : Reads position [] ⟨.ok (.endOfText position), position, []⟩
  | token {position : Nat} {kind : Kind} {text span rest : Text} :
      Spells kind text span rest →
      Reads position (span ++ rest)
        ⟨.ok ⟨kind, text, position, span.length⟩, position + span.length, rest⟩
  | stray {position : Nat} {c : Char} {rest : Text} :
      Stray c →
      Reads position (c :: rest)
        ⟨.error (.unrecognizedCharacter position [c]), position + 1, rest⟩
  /-- A string literal that never ends reaches to the end of the text. -/
  | unclosed {position : Nat} {quote : Char} {rest : Text} :
      quote = '\'' ∨ quote = '"' →
      quote ∉ rest →
      Reads position (quote :: rest)
        ⟨.error (.unterminatedLiteral position), position + 1 + rest.length, []⟩

/-- A stray character is nothing that a reading looks for. -/
theorem Stray.not_isQuote {c : Char} (h : Stray c) : ¬ Lexeme.isQuote c = true := by
  rw [Lexeme.isQuote_iff]
  simpa using h.not_quote

theorem Stray.not_isPunctuator {c : Char} (h : Stray c) : ¬ Lexeme.isPunctuator c = true :=
  mt Lexeme.isPunctuator_iff.1 h.not_punctuator

theorem lexeme_stray (position : Nat) {c : Char} (h : Stray c) (rest : Text) :
    lexeme position (c :: rest) =
      ⟨.error (.unrecognizedCharacter position [c]), position + 1, rest⟩ := by
  rw [lexeme, if_neg h.ne_space, if_neg h.not_isQuote, if_neg h.not_isPunctuator,
    if_neg (Bool.eq_false_iff.1 h.not_digit)]

/-- A text has no other reading than that of the lexer. -/
theorem Reads.eq_lexeme {position : Nat} {text : Text} {reading : Reading}
    (h : Reads position text reading) : lexeme position text = reading := by
  induction h with
  | space _ ih => rw [lexeme, if_pos rfl, ih]
  | endOfText => rfl
  | token hsp => exact lexeme_of_spells _ hsp
  | stray hc => exact lexeme_stray _ hc _
  | unclosed hq hn => rw [lexeme_quote _ hq, Lexeme.literal_of_not_mem_all _ hn]

/-- At a character that is no space something is read. -/
theorem exists_reads_cons (position : Nat) {c : Char} (hs : c ≠ ' ') (rest : Text) :
    ∃ reading, Reads position (c :: rest) reading := by
  by_cases hq : c = '\'' ∨ c = '"'
  · by_cases hm : c ∈ rest
    · obtain ⟨body, rest', rfl, hn⟩ := List.eq_append_cons_of_mem hm
      have hr := @Reads.token position _ _ _ rest' (.literal hq hn)
      rw [List.cons_append, List.append_assoc, List.singleton_append] at hr
      exact ⟨_, hr⟩
    · exact ⟨_, .unclosed hq hm⟩
  · by_cases hp : c ∈ ['+', '-', '*', '/', '&', '|', '(', ')']
    · by_cases hpair : (c = '&' ∨ c = '|') ∧ rest.head? = some c
      · obtain ⟨rest', rfl⟩ := List.head?_eq_some_iff.1 hpair.2
        exact ⟨_, .token (.pair hpair.1)⟩
      · exact ⟨_, .token (.single hp fun h h' => hpair ⟨h, h'⟩)⟩
    · by_cases hd : c.isDigit = true
      · have hsp : Spells .numeric ((c :: rest).takeWhile Char.isDigit)
            ((c :: rest).takeWhile Char.isDigit) ((c :: rest).dropWhile Char.isDigit) := by
          refine .numeral ?_ (fun c hc => List.mem_takeWhile_imp hc) ?_
          · rw [List.takeWhile_cons_of_pos hd]
            exact List.cons_ne_nil _ _
          · intro c' hc
            have hnot := List.head?_dropWhile_not Char.isDigit (c :: rest)
            rwa [hc] at hnot
        have hr := @Reads.token position _ _ _ _ hsp
        rw [List.takeWhile_append_dropWhile] at hr
        exact ⟨_, hr⟩
      · exact ⟨_, .stray ⟨hs, by simpa using hq, hp, Bool.eq_false_iff.2 hd⟩⟩

theorem lexeme_reads (position : Nat) (text : Text) :
    Reads position text (lexeme position text) := by
  induction text generalizing position with
  | nil => exact .endOfText
  | cons c rest ih =>
      by_cases hs : c = ' '
      · subst hs
        rw [lexeme, if_pos rfl]
        exact .space (ih (position + 1))
      · obtain ⟨reading, hr⟩ := exists_reads_cons position hs rest
        rw [hr.eq_lexeme]
        exact hr

end Calculator

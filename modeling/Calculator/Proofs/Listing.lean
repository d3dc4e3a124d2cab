import Calculator.Command.Argument
import Calculator.Proofs.Digits
import Calculator.Proofs.Quoting
import Calculator.Proofs.Tiling

/-!
# What a listing of tokens tells

A listing has a line for each token.  The name of the kind ends at the first
space, the quoted text ends where it is read to its end, and the offset ends
with the line.  So a line is known by any text that it begins
(`Token.line_append_inj`), and a listing tells the kinds, texts and offsets.

It does not show lengths.  But of a token that was read the length follows from
its kind and its text, so a listing tells the tokens (`listing_inj`).  The last
of them stands at the length of the text.

Two texts with the same tokens are gone through side by side.  Neither has a
space where a token begins, so at any offset either both have a space or both
have the same token.  The quotes that enclose a string literal are not part of
its text, and they are all that can differ (`Lexes.agreesAt`).
-/

namespace Calculator

/-! ## Lines -/

/-- A part that ends at the first separator is known by any text that it begins. -/
theorem append_cons_inj_of_not_mem {separator : Char} {text text' rest rest' : Text}
    (h : separator ∉ text) (h' : separator ∉ text')
    (he : text ++ separator :: rest = text' ++ separator :: rest') :
    text = text' ∧ rest = rest' := by
  induction text generalizing text' with
  | nil =>
      cases text' with
      | nil => exact ⟨rfl, (List.cons.inj he).2⟩
      | cons c text' => exact absurd ((List.cons.inj he).1 ▸ List.mem_cons_self) h'
  | cons c text ih =>
      cases text' with
      | nil => exact absurd ((List.cons.inj he).1 ▸ List.mem_cons_self) h
      | cons c' text' =>
          obtain ⟨rfl, htail⟩ := List.cons.inj he
          obtain ⟨rfl, hrest⟩ := ih (fun hm => h (List.mem_cons_of_mem c hm))
            (fun hm => h' (List.mem_cons_of_mem c hm)) htail
          exact ⟨rfl, hrest⟩

theorem Kind.space_not_mem_name (kind : Kind) : ' ' ∉ kind.name := by
  cases kind <;> decide

namespace Token

/-- A line tells the kind, the text and the offset. -/
theorem line_append_inj {token token' : Token} {rest rest' : Text}
    (h : token.line ++ '\n' :: rest = token'.line ++ '\n' :: rest') :
    token.kind = token'.kind ∧ token.text = token'.text ∧ token.location = token'.location ∧
      rest = rest' := by
  simp only [line, List.append_assoc, List.cons_append] at h
  obtain ⟨hname, h⟩ := append_cons_inj_of_not_mem token.kind.space_not_mem_name
    token'.kind.space_not_mem_name h
  obtain ⟨htext, h⟩ := Quoted.encode_append_inj h
  have hend : ∀ value, '\n' ∉ Numeral.write value := Numeral.not_mem_write (by decide) rfl
  obtain ⟨hnumber, hrest⟩ := append_cons_inj_of_not_mem (hend token.location)
    (hend token'.location) (List.cons.inj h).2
  exact ⟨Kind.name_injective hname, htext, Numeral.write_injective hnumber, hrest⟩

/-- The number of characters that a token covers if it was read. -/
def measure (kind : Kind) (text : Text) : Int :=
  text.length + if kind = .stringLiteral then 2 else 0

end Token

/-! ## Listings -/

theorem Spells.length_eq {kind : Kind} {text span rest : Text} (h : Spells kind text span rest) :
    (span.length : Int) = Token.measure kind text := by
  cases h <;> simp [Token.measure]
  omega

theorem Lexes.length_eq {position : Nat} {text : Text} {lexemes : List Token}
    (h : Lexes position text lexemes) :
    ∀ token ∈ lexemes, token.length = Token.measure token.kind token.text := by
  induction h with
  | nil => exact nofun
  | space _ ih => exact ih
  | token hsp _ ih => exact List.forall_mem_cons.2 ⟨hsp.length_eq, ih⟩

theorem tokens_length_eq {text : Text} {ts : List Token} (h : tokens text = .ok ts) :
    ∀ token ∈ ts, token.length = Token.measure token.kind token.text := by
  obtain ⟨lexemes, rfl, hl⟩ := tokens_eq_ok_iff_lexes.1 h
  intro token hm
  rcases List.mem_append.1 hm with hm | hm
  · exact hl.length_eq token hm
  · rw [List.mem_singleton.1 hm]
    rfl

namespace Argument

theorem listing_cons (token : Token) (ts : List Token) :
    listing (token :: ts) = token.line ++ '\n' :: listing ts := by
  simp [listing]

theorem listing_cons_ne_nil (token : Token) (ts : List Token) : listing (token :: ts) ≠ [] := by
  rw [listing_cons]
  exact List.append_ne_nil_of_right_ne_nil _ (List.cons_ne_nil _ _)

/-- A listing tells the tokens, if their lengths are those of tokens that were read. -/
theorem listing_inj {ts us : List Token}
    (ht : ∀ token ∈ ts, token.length = Token.measure token.kind token.text)
    (hu : ∀ token ∈ us, token.length = Token.measure token.kind token.text)
    (h : listing ts = listing us) : ts = us := by
  induction ts generalizing us with
  | nil =>
      cases us with
      | nil => rfl
      | cons token' us => exact absurd h.symm (listing_cons_ne_nil token' us)
  | cons token ts ih =>
      cases us with
      | nil => exact absurd h (listing_cons_ne_nil token ts)
      | cons token' us =>
          rw [listing_cons, listing_cons] at h
          obtain ⟨hkind, htext, hlocation, hrest⟩ := Token.line_append_inj h
          obtain ⟨ht, hts⟩ := List.forall_mem_cons.1 ht
          obtain ⟨hu, hus⟩ := List.forall_mem_cons.1 hu
          have hlength : token.length = token'.length := by rw [ht, hu, hkind, htext]
          have htoken : token = token' := by
            cases token
            cases token'
            exact Token.mk.injEq .. ▸ ⟨hkind, htext, hlocation, hlength⟩
          rw [htoken, ih hts hus hrest]

end Argument

/-! ## Texts with the same tokens -/

/-- Whether a quote stands at an offset that encloses the text of a token. -/
def Token.Encloses (token : Token) (l : Int) : Prop :=
  token.kind = .stringLiteral ∧ (l = token.location ∨ l + 1 = token.stop)

/-- Whether two texts agree at an offset with certain characters there: they are the same, or
quotes that enclose one of the tokens. -/
def AgreesAt (ts : List Token) (l : Int) (c c' : Option Char) : Prop :=
  c = c' ∨ ∃ token ∈ ts, token.Encloses l ∧
    (c = some '\'' ∨ c = some '"') ∧ (c' = some '\'' ∨ c' = some '"')

theorem AgreesAt.mono {ts us : List Token} {l : Int} {c c' : Option Char} (h : AgreesAt ts l c c')
    (hs : ts ⊆ us) : AgreesAt us l c c' := by
  rcases h with h | ⟨token, hm, h⟩
  · exact Or.inl h
  · exact Or.inr ⟨token, hs hm, h⟩

/-- Where two spans spell the same, only quotes at both ends can differ. -/
theorem Spells.agreesAt {kind : Kind} {text span span' rest rest' : Text}
    (h : Spells kind text span rest) (h' : Spells kind text span' rest') (position i : Nat) :
    AgreesAt [⟨kind, text, position, span.length⟩] (position + i : Nat) span[i]? span'[i]? := by
  cases h with
  | numeral => cases h'; exact Or.inl rfl
  | pair => cases h'; exact Or.inl rfl
  | single => cases h'; exact Or.inl rfl
  | @literal quote _ _ hq hm =>
      cases h' with
      | @literal quote' _ _ hq' hm' =>
          have hquotes : (some quote = some '\'' ∨ some quote = some '"') ∧
              (some quote' = some '\'' ∨ some quote' = some '"') := by simpa using ⟨hq, hq'⟩
          cases i with
          | zero => exact Or.inr ⟨_, List.mem_singleton_self _, ⟨rfl, Or.inl rfl⟩, hquotes⟩
          | succ i =>
              rw [List.getElem?_cons_succ, List.getElem?_cons_succ]
              rcases Nat.lt_trichotomy i text.length with hi | rfl | hi
              · rw [List.getElem?_append_left hi, List.getElem?_append_left hi]
                exact Or.inl rfl
              · rw [List.getElem?_concat_length, List.getElem?_concat_length]
                refine Or.inr ⟨_, List.mem_singleton_self _, ⟨rfl, Or.inr ?_⟩, hquotes⟩
                simp [Token.stop]
                omega
              · have hlen : ∀ c : Char, (text ++ [c]).length ≤ i := fun c => by simp; omega
                rw [List.getElem?_eq_none (hlen quote), List.getElem?_eq_none (hlen quote')]
                exact Or.inl rfl

theorem Lexes.first_le {position : Nat} {text : Text} {lexemes : List Token}
    (h : Lexes position text lexemes) : ∀ token ∈ lexemes, (position : Int) ≤ token.location := by
  induction h with
  | nil => exact nofun
  | space _ ih =>
      intro token hm
      have := ih token hm
      omega
  | token _ _ ih =>
      refine List.forall_mem_cons.2 ⟨Int.le_refl _, ?_⟩
      intro token hm
      have := ih token hm
      omega

/-- A text does not begin behind its first lexeme. -/
theorem Lexes.not_behind_first {position : Nat} {kind : Kind} {body text : Text} {length : Int}
    {lexemes : List Token} :
    ¬ Lexes (position + 1) text (⟨kind, body, position, length⟩ :: lexemes) := by
  intro h
  have hle : ((position + 1 : Nat) : Int) ≤ position := h.first_le _ List.mem_cons_self
  omega

/-- With the same lexemes, the same spaces come off the front of both texts. -/
theorem Lexes.agreesAt {position : Nat} {text text' : Text} {lexemes : List Token}
    (h : Lexes position text lexemes) (h' : Lexes position text' lexemes)
    (hl : text.length = text'.length) (i : Nat) :
    AgreesAt lexemes (position + i : Nat) text[i]? text'[i]? := by
  induction h generalizing text' i with
  | nil =>
      rw [List.eq_nil_of_length_eq_zero hl.symm]
      exact Or.inl rfl
  | space hx ih =>
      cases h' with
      | nil => cases hl
      | space hx' =>
          cases i with
          | zero => exact Or.inl rfl
          | succ i =>
              rw [← Nat.succ_add_eq_add_succ]
              exact ih hx' (Nat.succ.inj hl) i
      | token _ _ => exact absurd hx Lexes.not_behind_first
  | @token position kind body span rest lexemes hsp hx ih =>
      -- the second text cannot have a space here, so it has a span of the same length
      generalize hts : Token.mk kind body position span.length :: lexemes = ts at h'
      cases h' with
      | nil => cases hts
      | space hx' =>
          rw [← hts] at hx'
          exact absurd hx' Lexes.not_behind_first
      | @token _ _ _ span' rest' _ hsp' hx' =>
          obtain ⟨htoken, rfl⟩ := List.cons.inj hts
          obtain ⟨rfl, rfl, -, hspan⟩ := Token.mk.inj htoken
          have hspan : span.length = span'.length := Int.ofNat.inj hspan
          rw [List.length_append, List.length_append, hspan] at hl
          rw [← hspan] at hx' ⊢
          by_cases hi : i < span.length
          · rw [List.getElem?_append_left hi, List.getElem?_append_left (hspan ▸ hi)]
            exact (hsp.agreesAt hsp' position i).mono (List.cons_subset_cons _ (List.nil_subset _))
          · have := ih hx' (Nat.add_left_cancel hl) (i - span.length)
            rw [List.getElem?_append_right (Nat.le_of_not_lt hi),
              List.getElem?_append_right (hspan ▸ Nat.le_of_not_lt hi), ← hspan]
            rw [Nat.add_assoc, Nat.add_sub_cancel' (Nat.le_of_not_lt hi)] at this
            exact this.mono (List.subset_cons_self _ _)

/-! ## Listings as output -/

namespace Argument

theorem run_list (expression : Text) :
    run ["--tokens".toList, "--".toList, expression] = some (list expression) := rfl

theorem list_of_ok {expression : Text} {ts : List Token} (h : tokens expression = .ok ts) :
    list expression = .printed (listing ts) := by
  rw [list, h]

theorem list_of_error {expression : Text} {fault : Fault} (h : tokens expression = .error fault) :
    list expression = .failed fault expression := by
  rw [list, h]

/-- A listing succeeds with tokens. -/
theorem exists_tokens_of_exitCode {expression : Text} (h : (list expression).exitCode = 0) :
    ∃ ts, tokens expression = .ok ts ∧ (list expression).stdout = listing ts := by
  cases ht : tokens expression with
  | ok ts => exact ⟨ts, rfl, congrArg Outcome.stdout (list_of_ok ht)⟩
  | error fault =>
      rw [list_of_error ht] at h
      cases h

theorem listing_ne_nil {expression : Text} {ts : List Token} (h : tokens expression = .ok ts) :
    listing ts ≠ [] := by
  obtain ⟨lexemes, rfl, -⟩ := tokens_eq_ok_iff_lexes.1 h
  cases lexemes with
  | nil => exact listing_cons_ne_nil _ _
  | cons token lexemes => exact listing_cons_ne_nil token _

end Argument

/-- Texts with the same tokens have the same length, and agree but for quotes. -/
theorem agreesAt_of_tokens {first second : Text} {ts : List Token}
    (h : tokens first = .ok ts) (h' : tokens second = .ok ts) :
    first.length = second.length ∧ ∀ i : Nat, AgreesAt ts i first[i]? second[i]? := by
  obtain ⟨lexemes, rfl, hl⟩ := tokens_eq_ok_iff_lexes.1 h
  obtain ⟨lexemes', he, hl'⟩ := tokens_eq_ok_iff_lexes.1 h'
  obtain ⟨rfl, hend⟩ := List.append_inj' he rfl
  have hlength : first.length = second.length :=
    Int.natCast_inj.1 (congrArg Token.location (List.cons.inj hend).1)
  refine ⟨hlength, ?_⟩
  intro i
  have ha := hl.agreesAt hl' hlength i
  rw [Nat.zero_add] at ha
  exact ha.mono (List.subset_append_left _ _)

/-- Expressions whose tokens are listed alike have the same tokens and the same length, and agree
at each offset but for quotes that enclose a string literal.  A fault leaves nothing of a listing,
and a listing that succeeds is not empty. -/
theorem listing_determines_text :
    (∀ first second outcome outcome',
      Argument.run ["--tokens".toList, "--".toList, first] = some outcome →
      Argument.run ["--tokens".toList, "--".toList, second] = some outcome' →
      outcome.exitCode = 0 → outcome'.exitCode = 0 → outcome.stdout = outcome'.stdout →
      first.length = second.length ∧
      (∃ ts, tokens first = .ok ts ∧ tokens second = .ok ts ∧
        ∀ i : Nat, AgreesAt ts i first[i]? second[i]?) ∧
      ((∀ c ∈ first, Lexeme.isQuote c = false) → first = second)) ∧
    (∀ expression fault, tokens expression = .error fault →
      ∃ outcome, Argument.run ["--tokens".toList, "--".toList, expression] = some outcome ∧
        outcome.stdout = [] ∧ outcome.exitCode = 1) ∧
    ∀ expression outcome,
      Argument.run ["--tokens".toList, "--".toList, expression] = some outcome →
      outcome.exitCode = 0 → outcome.stdout ≠ [] := by
  refine ⟨?_, ?_, ?_⟩
  · intro first second outcome outcome' hrun hrun' hcode hcode' hout
    cases Option.some.inj ((Argument.run_list first).symm.trans hrun)
    cases Option.some.inj ((Argument.run_list second).symm.trans hrun')
    obtain ⟨ts, ht, hs⟩ := Argument.exists_tokens_of_exitCode hcode
    obtain ⟨us, hu, hs'⟩ := Argument.exists_tokens_of_exitCode hcode'
    rw [hs, hs'] at hout
    obtain rfl := Argument.listing_inj (tokens_length_eq ht) (tokens_length_eq hu) hout
    obtain ⟨hlength, hagree⟩ := agreesAt_of_tokens ht hu
    refine ⟨hlength, ⟨ts, ht, hu, hagree⟩, ?_⟩
    intro hplain
    refine List.ext_getElem? fun i => (hagree i).resolve_right ?_
    rintro ⟨-, -, -, hquote, -⟩
    rcases hquote with hc | hc <;> cases hplain _ (List.mem_of_getElem? hc)
  · intro expression fault h
    refine ⟨_, Argument.run_list expression, ?_⟩
    rw [Argument.list_of_error h]
    exact ⟨rfl, rfl⟩
  · intro expression outcome hrun hcode
    cases Option.some.inj ((Argument.run_list expression).symm.trans hrun)
    obtain ⟨ts, ht, hs⟩ := Argument.exists_tokens_of_exitCode hcode
    rw [hs]
    exact Argument.listing_ne_nil ht

/-- The quotes of a literal are not listed, so two texts can differ in them. -/
theorem listing_determines_text_quotes :
    "'a' 1".toList ≠ "\"a\" 1".toList ∧
    ∃ ts, tokens "'a' 1".toList = .ok ts ∧ tokens "\"a\" 1".toList = .ok ts ∧
      ∀ i : Nat, AgreesAt ts i "'a' 1".toList[i]? "\"a\" 1".toList[i]? := by
  have hfirst : tokens "'a' 1".toList =
      .ok [⟨.stringLiteral, ['a'], 0, 3⟩, .lexeme .numeric ['1'] 4, .endOfText 5] :=
    tokens_eq_ok_iff.2 (by decide +kernel)
  have hsecond : tokens "\"a\" 1".toList =
      .ok [⟨.stringLiteral, ['a'], 0, 3⟩, .lexeme .numeric ['1'] 4, .endOfText 5] :=
    tokens_eq_ok_iff.2 (by decide +kernel)
  have h := listing_determines_text.1 "'a' 1".toList "\"a\" 1".toList _ _
    (Argument.run_list _) (Argument.run_list _)
    (by rw [Argument.list_of_ok hfirst]; rfl) (by rw [Argument.list_of_ok hsecond]; rfl)
    (by rw [Argument.list_of_ok hfirst, Argument.list_of_ok hsecond])
  exact ⟨by decide, h.2.1⟩

end Calculator

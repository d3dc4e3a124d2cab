import Calculator.Proofs.Listing
import Calculator.Proofs.Relocation

/-!
# What a message tells

The wording of a fault holds texts from outside: that of a token, or a character,
and perhaps the text that was expected.  Quoting makes each of them printable
(`Quoted.legible_encode`), so the wording is one line and shows all its characters
(`Fault.legible_summary`).

A wording is read from the left.  The name of a kind ends at the first space, and
a quoted text ends where it is read to its end, whatever it holds.  So what was
expected is known by any text that it begins (`Fault.expectation_append_inj`), and
so is the token that was found (`Token.description_append_inj`).  A name begins
with a letter and a quoted text with a quote, so it is known, too, whether a text
was expected.

The wordings of two sorts of fault are different where they begin
(`Fault.Cause.opening`), so a wording tells the sort as well.
-/

namespace Calculator

/-! ## Printable texts -/

/-- Whether a text shows all its characters. -/
def Legible (text : Text) : Prop := ∀ c ∈ text, isPrintable c = true

/-- The characters that end a line in any convention. -/
def Lines.breaks : Text :=
  ['\n', '\x0b', '\x0c', '\r', '\x1c', '\x1d', '\x1e', '\u0085', '\u2028', '\u2029']

namespace Legible

variable {text text' : Text}

theorem of_all (h : text.all isPrintable = true) : Legible text := List.all_eq_true.1 h

theorem cons {c : Char} (hc : isPrintable c = true) (h : Legible text) : Legible (c :: text) :=
  List.forall_mem_cons.2 ⟨hc, h⟩

theorem append (h : Legible text) (h' : Legible text') : Legible (text ++ text') :=
  List.forall_mem_append.2 ⟨h, h'⟩

/-- No line ends inside a text that shows all its characters. -/
theorem not_mem_breaks (h : Legible text) : ∀ c ∈ text, c ∉ Lines.breaks := by
  have hb : Lines.breaks.any isPrintable = false := by decide +kernel
  intro c hm hc
  exact List.any_eq_false.1 hb c hc (h c hm)

end Legible

namespace Quoted

theorem isPrintable_digitChar : ∀ n < 16, isPrintable (Nat.digitChar n) = true := by
  decide +kernel

theorem legible_hex (width n : Nat) : Legible (hex width n) := by
  induction width generalizing n with
  | zero => exact nofun
  | succ width ih =>
      have hlast := isPrintable_digitChar (n % 16) (Nat.mod_lt n (by decide))
      exact (ih (n / 16)).append (List.forall_mem_singleton.2 hlast)

theorem legible_numbered (c : Char) : Legible (numbered c) := by
  have hhex := fun width => legible_hex width c.toNat
  rw [numbered]
  split
  · exact .cons rfl (.cons rfl (hhex 2))
  · split
    · exact .cons rfl (.cons rfl (hhex 4))
    · exact .cons rfl (.cons rfl (hhex 8))

theorem isPrintable_quote {quote : Char} (hq : quote = '\'' ∨ quote = '"') :
    isPrintable quote = true := by
  rcases hq with rfl | rfl <;> rfl

/-- What is not printable is written with printable characters. -/
theorem legible_escape {quote : Char} (hq : quote = '\'' ∨ quote = '"') (c : Char) :
    Legible (escape quote c) := by
  have hslash : isPrintable '\\' = true := rfl
  rw [escape]
  split
  · rename_i hmark
    refine .cons hslash (List.forall_mem_singleton.2 ?_)
    rcases hmark with rfl | rfl
    · exact hslash
    · exact isPrintable_quote hq
  · split
    · exact .of_all rfl
    · split
      · exact .of_all rfl
      · split
        · exact .of_all rfl
        · split
          · rename_i hc
            exact List.forall_mem_singleton.2 hc
          · exact legible_numbered c

/-- A quoted text is printable, whatever it quotes. -/
theorem legible_encode (text : Text) : Legible (encode text) := by
  have hquote := isPrintable_quote (quoteFor_eq text)
  refine .cons hquote (.append ?_ (List.forall_mem_singleton.2 hquote))
  intro c hm
  obtain ⟨c', -, hc⟩ := List.mem_flatMap.1 hm
  exact legible_escape (quoteFor_eq text) c' c hc

/-- A quoted text begins with a quote. -/
theorem encode_append_ne {text rest : Text} {c : Char} {tail : Text}
    (hc : c ≠ '\'' ∧ c ≠ '"') : encode text ++ rest ≠ c :: tail := by
  intro h
  obtain ⟨hq, -⟩ := List.cons.inj h
  rcases quoteFor_eq text with ht | ht
  · exact hc.1 (hq.symm.trans ht)
  · exact hc.2 (hq.symm.trans ht)

end Quoted

/-! ## Tokens in messages -/

theorem Kind.legible_name (kind : Kind) : Legible kind.name := by
  cases kind <;> exact .of_all rfl

/-- The name of a kind is a word, and no quoted text. -/
theorem Kind.encode_append_ne_name (kind : Kind) (text rest rest' : Text) :
    Quoted.encode text ++ rest ≠ kind.name ++ rest' := by
  cases kind <;> exact Quoted.encode_append_ne (by decide)

namespace Token

/-- Whether a message names two tokens alike: the end of the text just as such, and any other
token by its kind and its text. -/
def NamedAlike (token token' : Token) : Prop :=
  (token.kind = .endOfText ∧ token'.kind = .endOfText) ∨
    (token.kind ≠ .endOfText ∧ token'.kind ≠ .endOfText ∧
      token.kind = token'.kind ∧ token.text = token'.text)

theorem description_of_end {token : Token} (h : token.kind = .endOfText) :
    token.description = "end".toList ++ ' ' :: "of input".toList :=
  if_pos h

theorem description_of_ne_end {token : Token} (h : token.kind ≠ .endOfText) :
    token.description = token.kind.name ++ ' ' :: Quoted.encode token.text :=
  if_neg h

theorem legible_description (token : Token) : Legible token.description := by
  by_cases h : token.kind = .endOfText
  · rw [description_of_end h]
    exact .of_all rfl
  · rw [description_of_ne_end h]
    exact token.kind.legible_name.append (.cons isPrintable_space (Quoted.legible_encode _))

/-- No kind has the name that the end of the text has in messages. -/
theorem description_append_ne {token token' : Token} (h : token.kind = .endOfText)
    (h' : token'.kind ≠ .endOfText) (rest rest' : Text) :
    token.description ++ rest ≠ token'.description ++ rest' := by
  intro he
  rw [description_of_end h, description_of_ne_end h', List.append_assoc, List.append_assoc] at he
  obtain ⟨hname, -⟩ := append_cons_inj_of_not_mem (by decide) token'.kind.space_not_mem_name he
  revert hname
  cases token'.kind <;> decide

/-- A token is known, as far as it is named, by any text that its name begins. -/
theorem description_append_inj {token token' : Token} {rest rest' : Text}
    (h : token.description ++ rest = token'.description ++ rest') :
    token.NamedAlike token' ∧ rest = rest' := by
  by_cases hk : token.kind = .endOfText
  · by_cases hk' : token'.kind = .endOfText
    · rw [description_of_end hk, description_of_end hk'] at h
      exact ⟨Or.inl ⟨hk, hk'⟩, List.append_cancel_left h⟩
    · exact absurd h (description_append_ne hk hk' rest rest')
  · by_cases hk' : token'.kind = .endOfText
    · exact absurd h.symm (description_append_ne hk' hk rest' rest)
    · rw [description_of_ne_end hk, description_of_ne_end hk', List.append_assoc,
        List.append_assoc] at h
      obtain ⟨hname, htail⟩ := append_cons_inj_of_not_mem token.kind.space_not_mem_name
        token'.kind.space_not_mem_name h
      obtain ⟨htext, hrest⟩ := Quoted.encode_append_inj htail
      exact ⟨Or.inr ⟨hk, hk', Kind.name_injective hname, htext⟩, hrest⟩

theorem NamedAlike.description_eq {token token' : Token} (h : token.NamedAlike token') :
    token.description = token'.description := by
  rcases h with ⟨hk, hk'⟩ | ⟨hk, hk', hkind, htext⟩
  · rw [description_of_end hk, description_of_end hk']
  · rw [description_of_ne_end hk, description_of_ne_end hk', hkind, htext]

end Token

/-! ## Wordings -/

namespace Fault

/-- Whether a message says alike what was expected: the same text, or without one the same kind. -/
def ExpectedAlike (kind : Kind) (text : Option Text) (kind' : Kind) (text' : Option Text) : Prop :=
  text = text' ∧ (text = none → kind = kind')

theorem legible_expectation (kind : Kind) (text : Option Text) :
    Legible (expectation kind text) := by
  cases text with
  | none => exact kind.legible_name
  | some text => exact Quoted.legible_encode text

/-- What was expected is known by any text that begins with it, if a space is next. -/
theorem expectation_append_inj {kind kind' : Kind} {text text' : Option Text} {rest rest' : Text}
    (h : expectation kind text ++ ' ' :: rest = expectation kind' text' ++ ' ' :: rest') :
    ExpectedAlike kind text kind' text' ∧ rest = rest' := by
  cases text with
  | none =>
      cases text' with
      | none =>
          obtain ⟨hname, hrest⟩ :=
            append_cons_inj_of_not_mem kind.space_not_mem_name kind'.space_not_mem_name h
          exact ⟨⟨rfl, fun _ => Kind.name_injective hname⟩, hrest⟩
      | some text' => exact absurd h.symm (kind.encode_append_ne_name text' _ _)
  | some text =>
      cases text' with
      | none => exact absurd h (kind'.encode_append_ne_name text _ _)
      | some text' =>
          obtain ⟨htext, htail⟩ := Quoted.encode_append_inj h
          exact ⟨⟨congrArg some htext, nofun⟩, (List.cons.inj htail).2⟩

theorem ExpectedAlike.expectation_eq {kind kind' : Kind} {text text' : Option Text}
    (h : ExpectedAlike kind text kind' text') :
    expectation kind text = expectation kind' text' := by
  obtain ⟨rfl, hkind⟩ := h
  cases text with
  | none => rw [hkind rfl]
  | some text => rfl

theorem summary_trailingInput (token : Token) :
    (trailingInput token).summary =
      "unexpected ".toList ++ (token.description ++ " after expression".toList) :=
  List.append_assoc _ _ _

/-- What was expected and what was found, with the space between them. -/
theorem summary_unexpectedToken (token : Token) (kind : Kind) (text : Option Text) :
    (unexpectedToken token kind text).summary =
      "expected ".toList ++
        (expectation kind text ++ ' ' :: ("but found ".toList ++ token.description)) := by
  have hword : " but found ".toList = ' ' :: "but found ".toList := by decide
  rw [← List.cons_append, ← hword, ← List.append_assoc, ← List.append_assoc]
  rfl

theorem legible_summary (fault : Fault) : Legible fault.summary := by
  cases fault with
  | unrecognizedCharacter _ text =>
      exact .append (.of_all rfl) (Quoted.legible_encode text)
  | unexpectedToken token kind text =>
      rw [summary_unexpectedToken]
      have hfound : Legible ("but found ".toList ++ token.description) :=
        .append (.of_all rfl) token.legible_description
      exact .append (.of_all rfl)
        ((legible_expectation kind text).append (.cons isPrintable_space hfound))
  | trailingInput token =>
      rw [summary_trailingInput]
      exact .append (.of_all rfl)
        (token.legible_description.append (.of_all rfl))
  | unterminatedLiteral _ =>
      show Legible "unterminated string literal".toList
      exact .of_all rfl
  | divisionByZero _ =>
      show Legible zeroDivision
      exact .of_all rfl
  | nestingTooDeep _ =>
      show Legible "expression nested too deeply".toList
      exact .of_all rfl

theorem summary_unexpectedToken_inj {token token' : Token} {kind kind' : Kind}
    {text text' : Option Text}
    (h : (unexpectedToken token kind text).summary = (unexpectedToken token' kind' text').summary) :
    ExpectedAlike kind text kind' text' ∧ token.NamedAlike token' := by
  rw [summary_unexpectedToken, summary_unexpectedToken] at h
  obtain ⟨hexpected, hfound⟩ := expectation_append_inj (List.append_cancel_left h)
  have hd := List.append_cancel_left hfound
  rw [← List.append_nil token.description, ← List.append_nil token'.description] at hd
  exact ⟨hexpected, (Token.description_append_inj hd).1⟩

theorem summary_trailingInput_inj {token token' : Token}
    (h : (trailingInput token).summary = (trailingInput token').summary) :
    token.NamedAlike token' := by
  rw [summary_trailingInput, summary_trailingInput] at h
  exact (Token.description_append_inj (List.append_cancel_left h)).1

theorem summary_unrecognizedCharacter_inj {location location' : Int} {text text' : Text}
    (h : (unrecognizedCharacter location text).summary =
      (unrecognizedCharacter location' text').summary) : text = text' := by
  have he := List.append_cancel_left h
  rw [← List.append_nil (Quoted.encode text), ← List.append_nil (Quoted.encode text')] at he
  exact (Quoted.encode_append_inj he).1

/-! ## Sorts of fault -/

/-- What the wordings of a sort of fault begin with. -/
def Cause.opening : Cause → Text
  | unrecognizedCharacter => "unrec".toList
  | unterminatedLiteral => "unter".toList
  | unexpectedToken => "expec".toList
  | trailingInput => "unexp".toList
  | divisionByZero => "divis".toList
  | nestingTooDeep => "expre".toList

theorem Cause.opening_injective : Function.Injective Cause.opening := by
  intro cause cause'
  cases cause <;> cases cause' <;> decide

theorem take_summary (fault : Fault) : fault.summary.take 5 = fault.cause.opening := by
  cases fault with
  | unexpectedToken token kind text => rw [summary_unexpectedToken]; rfl
  | trailingInput token => rw [summary_trailingInput]; rfl
  | unrecognizedCharacter _ text => rfl
  | unterminatedLiteral _ => rfl
  | divisionByZero _ => rfl
  | nestingTooDeep _ => rfl

/-- A wording tells the sort of the fault. -/
theorem cause_of_summary_eq {fault fault' : Fault} (h : fault.summary = fault'.summary) :
    fault.cause = fault'.cause := by
  have hopening := congrArg (List.take 5) h
  rw [take_summary, take_summary] at hopening
  exact Cause.opening_injective hopening

end Fault

/-- A fault is worded in one line of printable characters, and the wording tells what it is about,
whatever texts it quotes. -/
theorem summary_unambiguous :
    (∀ fault : Fault, ∀ c ∈ fault.summary, isPrintable c = true ∧ c ∉ Lines.breaks) ∧
    (∀ token token' kind kind' text text',
      (Fault.unexpectedToken token kind text).summary =
          (Fault.unexpectedToken token' kind' text').summary ↔
        Fault.ExpectedAlike kind text kind' text' ∧ Token.NamedAlike token token') ∧
    (∀ token token', (Fault.trailingInput token).summary = (Fault.trailingInput token').summary ↔
      Token.NamedAlike token token') ∧
    (∀ location location' text text',
      (Fault.unrecognizedCharacter location text).summary =
          (Fault.unrecognizedCharacter location' text').summary ↔ text = text') ∧
    ∀ fault fault' : Fault, fault.summary = fault'.summary → fault.cause = fault'.cause := by
  refine ⟨?_, ?_, ?_, ?_, fun _ _ => Fault.cause_of_summary_eq⟩
  · intro fault c hm
    exact ⟨fault.legible_summary c hm, fault.legible_summary.not_mem_breaks c hm⟩
  · intro token token' kind kind' text text'
    refine ⟨Fault.summary_unexpectedToken_inj, ?_⟩
    rintro ⟨hexpected, htoken⟩
    rw [Fault.summary_unexpectedToken, Fault.summary_unexpectedToken, hexpected.expectation_eq,
      htoken.description_eq]
  · intro token token'
    refine ⟨Fault.summary_trailingInput_inj, fun h => ?_⟩
    rw [Fault.summary_trailingInput, Fault.summary_trailingInput, h.description_eq]
  · intro location location' text text'
    refine ⟨Fault.summary_unrecognizedCharacter_inj, ?_⟩
    rintro rfl
    rfl

/-- Two messages that would be the same if texts were quoted without a choice of quotes. -/
theorem summary_unambiguous_nested :
    (Fault.unexpectedToken ⟨.stringLiteral, "b' but found Numeric 'c".toList, 0, 25⟩ .punctuator
        (some "a".toList)).summary ≠
      (Fault.unexpectedToken ⟨.numeric, "c".toList, 0, 1⟩ .punctuator
        (some "a' but found StringLiteral 'b".toList)).summary ∧
    ∀ location : Int,
      (isPrintable 'e' = true ∧ 'e' ∉ Lines.breaks) ∧
      (Fault.unexpectedToken ⟨.numeric, "c".toList, location, 1⟩ .punctuator none).cause =
        (Fault.unexpectedToken ⟨.numeric, "c".toList, 0, 1⟩ .punctuator none).cause := by
  obtain ⟨hline, hexpected, -, -, hcause⟩ := summary_unambiguous
  refine ⟨?_, fun location => ⟨?_, ?_⟩⟩
  · intro h
    have ht := ((hexpected _ _ _ _ _ _).1 h).1.1
    revert ht
    decide
  · refine hline (.unexpectedToken ⟨.numeric, "c".toList, location, 1⟩ .punctuator none) 'e' ?_
    rw [Fault.summary_unexpectedToken]
    exact List.mem_append_left _ (by decide)
  · exact hcause _ _ rfl

end Calculator

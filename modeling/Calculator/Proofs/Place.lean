import Calculator.Proofs.Coverage
import Calculator.Proofs.FirstFault

/-!
# The place of a fault

A fault names a span of the text, by an offset and a number of characters.  The
span lies in the text, and it is the lexeme that the fault is about.

* A character that begins no token is the span, and so is the opening quote of
  a literal that never ends.
* For a division by zero the span is the division sign.
* For a token that is refused the span is the whole token, the quotes of a
  string literal included.  The end of the text has an empty span behind all
  characters.

So the carets of a diagnostic stand under the lexeme.  The only ones that are
not under a character are those of the end of the text, one caret behind the
last character.

All tokens and faults are found by the lexer, which takes them off the text at
their offsets (`Lexer.Stands.exists_takes`).  What the calculation adds is which
of the tokens it reports, and for a division by zero that it is a division sign.
A fault of the limit on open parentheses is left out here.
-/

namespace Calculator

/-! ## What a scan takes -/

theorem Covers.exists_takes {text : Text} {outcomes : List (Except Fault Token)}
    {outcome : Except Fault Token} {start stop : Nat} (h : Covers text start outcomes stop)
    (hm : outcome ∈ outcomes) :
    ∃ first last, start ≤ first ∧ last ≤ stop ∧ Takes text outcome first last := by
  induction h with
  | nil => cases hm
  | space _ _ ih =>
      obtain ⟨first, last, hle, hstop, ht⟩ := ih hm
      exact ⟨first, last, Nat.le_of_succ_le hle, hstop, ht⟩
  | cons ht hc ih =>
      rcases List.mem_cons.1 hm with rfl | hm
      · exact ⟨_, _, Nat.le_refl _, hc.le, ht⟩
      · obtain ⟨first, last, hle, hstop, ht'⟩ := ih hm
        exact ⟨first, last, Nat.le_trans ht.le hle, hstop, ht'⟩

/-- What a scan finds is taken off the text, from where the lexer stands. -/
theorem Lexer.Stands.exists_takes {text : Text} {lexer : Lexer} (h : lexer.Stands text)
    (hf : lexer.finished = false) :
    (∀ token ∈ lexer.scan.1, ∃ start stop, lexer.position ≤ start ∧ stop ≤ text.length ∧
      Takes text (.ok token) start stop) ∧
    ∀ fault ∈ lexer.scan.2, ∃ start stop, lexer.position ≤ start ∧ stop ≤ text.length ∧
      Takes text (.error fault) start stop := by
  obtain ⟨n, hn, -⟩ := exists_readings_drain hf
  obtain ⟨hc, hs⟩ := h.behind n
  rw [← hn] at hc
  have htakes : ∀ outcome ∈ lexer.scan.1.map .ok ++ (lexer.scan.2.map .error).toList,
      ∃ start stop, lexer.position ≤ start ∧ stop ≤ text.length ∧
        Takes text outcome start stop := by
    intro outcome hm
    obtain ⟨start, stop, hle, hstop, ht⟩ := hc.exists_takes hm
    exact ⟨start, stop, hle, Nat.le_trans hstop hs.position_le, ht⟩
  constructor
  · intro token hm
    exact htakes _ (List.mem_append_left _ (List.mem_map_of_mem hm))
  · intro fault hm
    refine htakes _ (List.mem_append_right _ ?_)
    rw [Option.mem_def.1 hm]
    exact List.mem_singleton_self _

/-! ## Spans of faults -/

namespace Fault

theorem Refuses.location_eq {fault : Fault} {token : Token} (h : fault.Refuses token) :
    fault.location = token.location := by
  rcases h with ⟨_, _, rfl⟩ | rfl
  · rfl
  · rfl

theorem Refuses.width_eq {fault : Fault} {token : Token} (h : fault.Refuses token) :
    fault.width = token.length := by
  rcases h with ⟨_, _, rfl⟩ | rfl
  · rfl
  · rfl

/-- The characters of a text that a fault concerns. -/
def span (fault : Fault) (text : Text) : Text :=
  (text.drop fault.location.toNat).take fault.width.toNat

/-- The characters of a text behind those that a fault concerns. -/
def behind (fault : Fault) (text : Text) : Text :=
  text.drop (fault.location + fault.width).toNat

/-- `Concerns fault lexeme rest`: a fault is about a lexeme in front of a text. -/
inductive Concerns : Fault → Text → Text → Prop where
  | stray {location : Int} {c : Char} {rest : Text} :
      Concerns (.unrecognizedCharacter location [c]) [c] rest
  | unclosed {location : Int} {quote : Char} {rest : Text} :
      quote = '\'' ∨ quote = '"' →
      Concerns (.unterminatedLiteral location) [quote] rest
  | zero {slash : Token} {rest : Text} : Concerns (.divisionByZero slash) ['/'] rest
  | token {fault : Fault} {token : Token} {lexeme rest : Text} :
      fault.Refuses token →
      Spells token.kind token.text lexeme rest →
      Concerns fault lexeme rest
  | endOfText {fault : Fault} {token : Token} :
      fault.Refuses token →
      token.kind = .endOfText →
      Concerns fault [] []

/-- A fault points at the lexeme that it is about. -/
structure PointsInto (fault : Fault) (text : Text) : Prop where
  location_nonneg : 0 ≤ fault.location
  width_nonneg : 0 ≤ fault.width
  stop_le : fault.location + fault.width ≤ text.length
  concerns : fault.Concerns (fault.span text) (fault.behind text)
  /-- The carets of a diagnostic begin under the lexeme, and there are as many as it has
  characters, or one. -/
  diagnostic_eq : fault.diagnostic text =
    text ++ '\n' :: List.replicate fault.location.toNat ' ' ++
      List.replicate (max (fault.span text).length 1) '^' ++ ' ' :: fault.summary ++ ['\n']
  /-- The last caret is not behind the column of the end of the text. -/
  carets_le : fault.location.toNat + max (fault.span text).length 1 ≤ text.length + 1

theorem length_span {fault : Fault} {text : Text} (hl : 0 ≤ fault.location)
    (hw : 0 ≤ fault.width) (hs : fault.location + fault.width ≤ text.length) :
    ((fault.span text).length : Int) = fault.width := by
  simp only [span, List.length_take, List.length_drop]
  omega

theorem pointsInto_of_concerns {fault : Fault} {text : Text} (hl : 0 ≤ fault.location)
    (hw : 0 ≤ fault.width) (hs : fault.location + fault.width ≤ text.length)
    (hc : fault.Concerns (fault.span text) (fault.behind text)) : fault.PointsInto text := by
  have hlen := length_span hl hw hs
  refine ⟨hl, hw, hs, hc, ?_, by omega⟩
  have hcarets : (max fault.width 1).toNat = max (fault.span text).length 1 := by omega
  rw [diagnostic, Notice.diagnostic, Notice.carets, notice, hcarets]

end Fault

/-- A fault of the text is a character of it. -/
theorem pointsInto_of_character {fault : Fault} {text : Text} {start : Nat} {c : Char}
    (hget : text[start]? = some c) (hl : fault.location = start) (hw : fault.width = 1)
    (hc : ∀ rest, fault.Concerns [c] rest) : fault.PointsInto text := by
  have hlt := (List.getElem?_eq_some_iff.1 hget).1
  have hspan : fault.span text = [c] := by
    rw [Fault.span, hl, hw, Int.toNat_natCast, (drop_eq_cons_iff.2 ⟨hget, rfl⟩)]
    rfl
  refine Fault.pointsInto_of_concerns (by omega) (by omega) (by omega) ?_
  rw [hspan]
  exact hc _

theorem pointsInto_of_lexical {text : Text} {fault : Fault} (h : (scan text).2 = some fault) :
    fault.PointsInto text := by
  obtain ⟨start, stop, -, -, ht⟩ := ((Lexer.stands_ofText text).exists_takes rfl).2 fault h
  cases ht with
  | stray hget _ => exact pointsInto_of_character hget rfl rfl fun _ => .stray
  | unclosed hget hq _ => exact pointsInto_of_character hget rfl rfl fun _ => .unclosed hq

theorem pointsInto_of_refuses {text : Text} {token : Token} {fault : Fault}
    (hm : token ∈ (scan text).1) (hr : fault.Refuses token) : fault.PointsInto text := by
  have hl := hr.location_eq
  have hw := hr.width_eq
  obtain ⟨start, stop, -, hle, ht⟩ := ((Lexer.stands_ofText text).exists_takes rfl).1 token hm
  cases ht with
  | token hstart hstop hlt hsp =>
      rw [Token.stop] at hstop
      refine Fault.pointsInto_of_concerns (by omega) (by omega) (by omega) (.token hr ?_)
      rw [Fault.span, Fault.behind, hl, hw]
      exact hsp
  | endOfText =>
      have hspan : fault.span text = [] := by rw [Fault.span, hw]; rfl
      have hbehind : fault.behind text = [] := by
        rw [Fault.behind, hl, hw]
        exact List.drop_length
      refine Fault.pointsInto_of_concerns ?_ ?_ ?_ ?_
      · rw [hl]; exact Int.natCast_nonneg _
      · rw [hw]; exact Int.le_refl 0
      · rw [hl, hw]; exact Int.le_of_eq (Int.add_zero _)
      · rw [hspan, hbehind]; exact .endOfText hr rfl

theorem pointsInto_of_slash {text : Text} {slash : Token} (hm : slash ∈ (scan text).1)
    (hp : slash.isPunctuator ['/'] = true) : (Fault.divisionByZero slash).PointsInto text := by
  obtain ⟨hk, htext⟩ := Token.is_iff.1 hp
  obtain ⟨start, stop, -, -, ht⟩ := ((Lexer.stands_ofText text).exists_takes rfl).1 slash hm
  cases ht with
  | token hstart hstop hlt hsp =>
      rw [Token.stop] at hstop
      have hd : slash.span text ++ slash.behind text = text.drop start :=
        Token.span_append_behind hstart (by omega)
      rw [hk, htext] at hsp
      generalize slash.span text = span at hd hsp
      cases hsp with
      | single _ _ =>
          exact pointsInto_of_character (drop_eq_cons_iff.1 hd.symm).1 hstart rfl fun _ => .zero
  | endOfText => cases hk

/-- A token is refused where it stands. -/
theorem Verdict.mem_of_refuses {limit : Option Nat} {text : Text} {token : Token} {fault : Fault}
    (h : Verdict limit text (.error fault)) (hr : fault.Refuses token) : token ∈ (scan text).1 := by
  obtain ⟨before, after, _, ht, -⟩ := h.exists_shift hr
  rw [ht]
  exact List.mem_append_right before List.mem_cons_self

/-- A division sign is reported where it stands. -/
theorem Verdict.slash_mem {limit : Option Nat} {text : Text} {slash : Token}
    (h : Verdict limit text (.error (.divisionByZero slash))) :
    slash ∈ (scan text).1 ∧ slash.isPunctuator ['/'] = true := by
  obtain ⟨n, -, ⟨-, front, us, ht, hp, -⟩, -⟩ := zeroDivision_of_verdict h
  refine ⟨List.mem_of_mem_take (i := n) ?_, hp⟩
  rw [ht]
  exact List.mem_append_right front List.mem_cons_self

/-- Every fault but that of the limit on open parentheses points at the lexeme that it is about. -/
theorem fault_points_into {text : Text} {fault : Fault}
    (h : evaluate text = .error fault ∨ tokens text = .error fault)
    (hd : ∀ token, fault ≠ .nestingTooDeep token) : fault.PointsInto text := by
  rcases h with h | h
  · have hv : Verdict (some openLimit) text (evaluate text) := verdict (some openLimit) text
    rw [h] at hv
    cases fault with
    | unrecognizedCharacter _ _ => exact pointsInto_of_lexical (unread_of_verdict hv rfl).1
    | unterminatedLiteral _ => exact pointsInto_of_lexical (unread_of_verdict hv rfl).1
    | unexpectedToken token kind expected =>
        have hr : (Fault.unexpectedToken token kind expected).Refuses token := Or.inl ⟨_, _, rfl⟩
        exact pointsInto_of_refuses (hv.mem_of_refuses hr) hr
    | trailingInput token =>
        have hr : (Fault.trailingInput token).Refuses token := Or.inr rfl
        exact pointsInto_of_refuses (hv.mem_of_refuses hr) hr
    | divisionByZero slash => exact pointsInto_of_slash hv.slash_mem.1 hv.slash_mem.2
    | nestingTooDeep token => exact absurd rfl (hd token)
  · exact pointsInto_of_lexical (tokens_eq_error_iff.1 h)

/-- A string literal is pointed at with its quotes, also where the text ends with it. -/
theorem fault_points_into_literal :
    evaluate "1 + 'a b'".toList =
      .error (.unexpectedToken ⟨.stringLiteral, "a b".toList, 4, 5⟩ .numeric none) ∧
    (Fault.unexpectedToken ⟨.stringLiteral, "a b".toList, 4, 5⟩ .numeric none).PointsInto
      "1 + 'a b'".toList := by
  have h : evaluate "1 + 'a b'".toList =
      .error (.unexpectedToken ⟨.stringLiteral, "a b".toList, 4, 5⟩ .numeric none) := by
    with_unfolding_all rfl
  exact ⟨h, fault_points_into (Or.inl h) fun token => nofun⟩

end Calculator

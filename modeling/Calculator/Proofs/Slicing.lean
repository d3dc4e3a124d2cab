import Calculator.Proofs.Aftermath

/-!
# Tokens as slices

A token is cut out of its text by two offsets.  The text of a string literal is
cut one character further in on both sides.  A slice with an offset behind the
end of the text would be shorter than the offsets say, so it matters that
neither is (`Token.CutFrom`).

A lexer never stands behind the end of its text.  So all that its readings take
off the text lies in it (`Taken`), and a token that does is cut out of the text
(`Taken.cutFrom`).  The text of a numeral is digits, at least one
(`Taken.isNumeral`).
-/

namespace Calculator

/-! ## One token -/

/-- The characters of a token in front of its text, and as many behind it. -/
def Kind.margin : Kind → Nat
  | stringLiteral => 1
  | _ => 0

namespace Token

/-- `CutBetween token text start stop`: the text of a token is the slice between two offsets, less
its margins, and no offset lies behind the end. -/
structure CutBetween (token : Token) (text : Text) (start stop : Nat) : Prop where
  location_eq : token.location = start
  stop_eq : token.stop = stop
  le : start + token.kind.margin ≤ stop - token.kind.margin
  stop_le : stop ≤ text.length
  text_eq : token.text = (text.take (stop - token.kind.margin)).drop (start + token.kind.margin)

/-- A token was cut out of a text, and nothing is missing. -/
structure CutFrom (token : Token) (text : Text) : Prop where
  exists_between : ∃ start stop, token.CutBetween text start stop
  length_eq : token.length = token.text.length + 2 * token.kind.margin

/-- The text of a token is a numeral. -/
structure IsNumeral (token : Token) : Prop where
  text_ne_nil : token.text ≠ []
  isDigit : ∀ c ∈ token.text, c.isDigit = true

/-- The span of a token is a slice. -/
theorem span_eq {token : Token} {start stop : Nat} (hl : token.location = start)
    (hs : token.stop = stop) (text : Text) : token.span text = (text.take stop).drop start := by
  have hn : token.length.toNat = stop - start := by
    rw [Token.stop] at hs
    omega
  rw [span, hl, hn, Int.toNat_natCast, List.drop_take]

end Token

/-- What is spelled is the span without its margins. -/
theorem Spells.text_eq {kind : Kind} {body span rest : Text} (h : Spells kind body span rest) :
    span.length = body.length + 2 * kind.margin ∧
      body = (span.take (span.length - kind.margin)).drop kind.margin := by
  have hself : ∀ text : Text, text = (text.take text.length).drop 0 := fun text => by
    rw [List.take_length, List.drop_zero]
  cases h with
  | numeral _ _ _ => exact ⟨rfl, hself body⟩
  | pair _ => exact ⟨rfl, rfl⟩
  | single _ _ => exact ⟨rfl, rfl⟩
  | @literal quote _ _ _ _ =>
      have hlength : (quote :: (body ++ [quote])).length = body.length + 2 := by
        rw [List.length_cons, List.length_append, List.length_singleton]
      refine ⟨hlength, ?_⟩
      rw [hlength]
      show body = (body ++ [quote]).take body.length
      rw [List.take_left]

/-! ## What readings take -/

/-- Whether the outcome of a reading was taken off a text. -/
def Taken (text : Text) (outcome : Except Fault Token) : Prop :=
  ∃ start stop, Takes text outcome start stop ∧ stop ≤ text.length

namespace Taken

variable {text : Text} {token : Token}

/-- A token that was taken off a text is cut out of it. -/
theorem cutFrom (h : Taken text (.ok token)) : token.CutFrom text := by
  obtain ⟨start, stop, ht, hle⟩ := h
  have hl := ht.token_location
  have hs := ht.token_stop
  cases ht with
  | endOfText =>
      exact ⟨⟨_, _, hl, hs, Nat.le_refl _, hle, by simp [Token.endOfText, Kind.margin]⟩, rfl⟩
  | token _ _ hlt hsp =>
      have hspan := Token.span_eq hl hs text
      have hlength : (token.span text).length = stop - start := by
        rw [hspan, List.length_drop, List.length_take_of_le hle]
      obtain ⟨hbody, htext⟩ := hsp.text_eq
      rw [Token.stop] at hs
      refine ⟨⟨start, stop, hl, ?_, by omega, hle, ?_⟩, by omega⟩
      · rw [Token.stop, hs]
      · rw [hlength, hspan, List.take_drop, List.take_take, List.drop_drop] at htext
        rw [htext]
        congr 2
        omega

theorem isNumeral (h : Taken text (.ok token)) (hk : token.kind = .numeric) : token.IsNumeral := by
  obtain ⟨start, stop, ht, -⟩ := h
  cases ht with
  | endOfText => cases hk
  | token _ _ _ hsp =>
      rw [hk] at hsp
      generalize token.span text = span, token.behind text = rest at hsp
      generalize hbody : token.text = body at hsp
      cases hsp with
      | numeral hne hd _ => exact ⟨hbody ▸ hne, hbody ▸ hd⟩

end Taken

/-- What is covered was taken off the text piece by piece. -/
theorem Covers.taken {text : Text} {outcomes : List (Except Fault Token)} {start stop : Nat}
    (h : Covers text start outcomes stop) (hs : stop ≤ text.length) :
    ∀ outcome ∈ outcomes, Taken text outcome := by
  intro outcome hm
  obtain ⟨first, last, -, hle, ht⟩ := h.exists_takes hm
  exact ⟨first, last, ht, Nat.le_trans hle hs⟩

namespace Lexer

theorem Stands.taken {text : Text} {lexer : Lexer} (h : lexer.Stands text) (n : Nat) :
    ∀ outcome ∈ lexer.readings n, Taken text outcome := by
  obtain ⟨hc, hb⟩ := h.behind n
  exact hc.taken hb.position_le

/-- All tokens of a scan were taken off the text. -/
theorem Stands.taken_scan {text : Text} {lexer : Lexer} (h : lexer.Stands text) :
    ∀ token ∈ lexer.scan.1, Taken text (.ok token) := by
  have hfirst := h.taken 1
  fun_induction scan lexer with
  | case1 =>
      intro _ hm
      cases hm
  | case2 lexer token hn _ =>
      refine List.forall_mem_singleton.2 (hfirst _ ?_)
      rw [readings, hn]
      exact List.mem_cons_self
  | case3 lexer token hn _ ih =>
      have hnext := h.next.2
      refine List.forall_mem_cons.2 ⟨hfirst _ ?_, ih hnext (hnext.taken 1)⟩
      rw [readings, hn]
      exact List.mem_cons_self

end Lexer

namespace Reader

theorem Poised.taken {text : Text} {reader : Reader} {faults : List Fault}
    (h : Poised text reader faults) : Taken text (.ok reader.token) := by
  obtain ⟨start, stop, ht, hc, -⟩ := h.takes
  exact ⟨start, stop, ht, Nat.le_trans hc.le h.stands.position_le⟩

/-- So is all that the lexer reads for demands. -/
theorem Poised.taken_scans {text : Text} {reader : Reader} {faults : List Fault}
    (h : Poised text reader faults) (demands : List Demand) :
    ∀ outcome ∈ reader.scans demands, Taken text outcome := by
  obtain ⟨n, hn, -⟩ := reader.exists_readings_scans demands
  rw [hn]
  exact h.stands.taken n

/-- The tokens in front of a reader can be taken off the text. -/
theorem Poised.taken_ahead {text : Text} {reader : Reader} {faults : List Fault}
    (h : Poised text reader faults) : ∀ token ∈ reader.ahead.1, Taken text (.ok token) := by
  rw [ahead]
  split
  · exact List.forall_mem_singleton.2 h.taken
  · exact List.forall_mem_cons.2 ⟨h.taken, h.stands.taken_scan⟩

end Reader
end Calculator

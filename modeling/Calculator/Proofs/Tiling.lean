import Calculator.Proofs.Reading
import Calculator.Proofs.Scan

/-!
# What the tokens of a text are

A text is tiled by the spans of its tokens and by spaces.  What a single span may
be, given what stands behind it, is known (`Spells`).  `Tiles` says how the spans
lie in the text, without going through it.

Going through it is `Lexes`, where each rule takes one space or one span off the
front.  The lexer follows these rules up to where it stops
(`exists_lexes_of_scan`) and has no choice between them (`scan_of_lexes`).  This
is so in front of any other text that does not go on with the last lexeme, too
(`Lexer.scan_append_lexes`).  A tiling is taken apart in the same way: at any
offset either a span begins, or no span covers it, and there is a space
(`lexes_of_tiles`).  So a text has one list of tokens at most.
-/

namespace Calculator

/-! ## Spans in a text -/

namespace Token

/-- The offset behind a token. -/
def stop (token : Token) : Int := token.location + token.length

/-- The characters of a text that a token covers. -/
def span (token : Token) (text : Text) : Text :=
  (text.drop token.location.toNat).take token.length.toNat

/-- The characters of a text behind a token. -/
def behind (token : Token) (text : Text) : Text := text.drop token.stop.toNat

end Token

/-- `Tiles text position lexemes`: from an offset on, the lexemes and spaces make up the text. -/
structure Tiles (text : Text) (position : Nat) (lexemes : List Token) : Prop where
  /-- No span begins before the offset. -/
  first_le : ∀ token ∈ lexemes, position ≤ token.location
  length_pos : ∀ token ∈ lexemes, 0 < token.length
  stop_le : ∀ token ∈ lexemes, token.stop ≤ text.length
  /-- The spans are disjoint and in order. -/
  ordered : lexemes.Pairwise fun token next => token.stop ≤ next.location
  /-- What no span covers is a space. -/
  blank : ∀ i, position ≤ i → (hi : i < text.length) →
    (∀ token ∈ lexemes, ¬ (token.location ≤ i ∧ i < token.stop)) → text[i] = ' '
  spelled : ∀ token ∈ lexemes,
    Spells token.kind token.text (token.span text) (token.behind text)

/-- `Lexes position rest lexemes`: the lexemes are read off the front of a text, which begins at
an offset. -/
inductive Lexes : Nat → Text → List Token → Prop where
  | nil {position : Nat} : Lexes position [] []
  | space {position : Nat} {rest : Text} {lexemes : List Token} :
      Lexes (position + 1) rest lexemes →
      Lexes position (' ' :: rest) lexemes
  | token {position : Nat} {kind : Kind} {text span rest : Text} {lexemes : List Token} :
      Spells kind text span rest →
      Lexes (position + span.length) rest lexemes →
      Lexes position (span ++ rest) (⟨kind, text, position, span.length⟩ :: lexemes)

/-- `Stops location rest stop`: no lexeme begins at an offset with `rest` behind it, since the
text ends there or because of a fault. -/
inductive Stops (location : Nat) : Text → Option Fault → Prop where
  | endOfText : Stops location [] none
  | stray {c : Char} {rest : Text} :
      Stray c →
      Stops location (c :: rest) (some (.unrecognizedCharacter location [c]))
  | unclosed {quote : Char} {rest : Text} :
      quote = '\'' ∨ quote = '"' →
      quote ∉ rest →
      Stops location (quote :: rest) (some (.unterminatedLiteral location))

/-! ## Cutting a text -/

/-- A character of a text by its offset. -/
theorem drop_eq_cons_iff {text rest : Text} {l : Nat} {c : Char} :
    text.drop l = c :: rest ↔ text[l]? = some c ∧ text.drop (l + 1) = rest := by
  constructor
  · intro h
    have hget : (text.drop l)[0]? = some c := by rw [h]; rfl
    have htail := congrArg List.tail h
    rw [List.tail_drop] at htail
    rw [List.getElem?_drop, Nat.add_zero] at hget
    exact ⟨hget, htail⟩
  · rintro ⟨hc, rfl⟩
    obtain ⟨hl, rfl⟩ := List.getElem?_eq_some_iff.1 hc
    exact List.drop_eq_getElem_cons hl

theorem drop_of_drop_eq_append {text span rest : Text} {position : Nat}
    (h : text.drop position = span ++ rest) : text.drop (position + span.length) = rest := by
  rw [← List.drop_drop, h, List.drop_left]

theorem add_length_le_of_drop_eq_append {text span rest : Text} {position : Nat} (hne : span ≠ [])
    (h : text.drop position = span ++ rest) : position + span.length ≤ text.length := by
  have := congrArg List.length h
  have := List.length_pos_iff.2 hne
  rw [List.length_drop, List.length_append] at *
  omega

/-- A span in front of a text is what its token covers. -/
theorem Spells.spelled {text body span rest : Text} {position : Nat} {kind : Kind}
    (h : Spells kind body span rest) (hr : text.drop position = span ++ rest) :
    Spells kind body ((Token.mk kind body position span.length).span text)
      ((Token.mk kind body position span.length).behind text) := by
  have hspan : (Token.mk kind body position span.length).span text = span := by
    rw [Token.span, Int.toNat_natCast, Int.toNat_natCast, hr, List.take_left]
  have hbehind : (Token.mk kind body position span.length).behind text = rest := by
    rw [Token.behind, Token.stop, ← Int.natCast_add, Int.toNat_natCast, drop_of_drop_eq_append hr]
  rw [hspan, hbehind]
  exact h

/-! ## Tilings and lexing -/

/-- A token in front of a text covers its front. -/
theorem Token.span_append_behind {token : Token} {text : Text} {position : Nat}
    (hl : token.location = position) (hn : 0 ≤ token.length) :
    token.span text ++ token.behind text = text.drop position := by
  have hs : token.stop.toNat = token.location.toNat + token.length.toNat := by
    simp only [stop]
    omega
  rw [span, behind, hs, ← List.drop_drop, List.take_append_drop, hl, Int.toNat_natCast]

theorem Token.length_span {token : Token} {text : Text} (hl : 0 ≤ token.location)
    (hn : 0 ≤ token.length) (hs : token.stop ≤ text.length) :
    ((token.span text).length : Int) = token.length := by
  simp only [stop] at hs
  simp only [span, List.length_take, List.length_drop]
  omega

/-- A span that a token covers goes in front of what is read behind it. -/
theorem Lexes.span_cons {text : Text} {position stop : Nat} {token : Token} {lexemes : List Token}
    (h : Lexes stop (text.drop stop) lexemes) (hl : token.location = position)
    (hs : token.stop = stop) (hle : position ≤ stop) (hend : token.stop ≤ text.length)
    (hsp : Spells token.kind token.text (token.span text) (token.behind text)) :
    Lexes position (text.drop position) (token :: lexemes) := by
  have hn : 0 ≤ token.length := by
    rw [Token.stop] at hs
    omega
  have hlen := Token.length_span (hl ▸ Int.natCast_nonneg position) hn hend
  have hstop : stop = position + (token.span text).length := by
    rw [Token.stop] at hs
    omega
  have hb : token.behind text = text.drop stop := by rw [Token.behind, hs, Int.toNat_natCast]
  rw [← hb, hstop] at h
  have ht := Lexes.token hsp h
  rwa [hlen, ← hl, Token.span_append_behind hl hn] at ht

theorem tiles_nil {text : Text} {position : Nat} (h : text.length ≤ position) :
    Tiles text position [] :=
  ⟨nofun, nofun, nofun, .nil, fun _ hp hi _ => absurd hi (Nat.not_lt.2 (Nat.le_trans h hp)), nofun⟩

/-- A space goes in front of a tiling. -/
theorem Tiles.space_cons {text rest : Text} {position : Nat} {lexemes : List Token}
    (h : Tiles text (position + 1) lexemes) (hr : text.drop position = ' ' :: rest) :
    Tiles text position lexemes := by
  refine ⟨?_, h.length_pos, h.stop_le, h.ordered, ?_, h.spelled⟩
  · intro token hm
    have := h.first_le token hm
    omega
  · intro i hp hi hc
    rcases Nat.eq_or_lt_of_le hp with rfl | hlt
    · exact Option.some.inj ((List.getElem?_eq_getElem hi).symm.trans (drop_eq_cons_iff.1 hr).1)
    · exact h.blank i hlt hi hc

/-- A span goes in front of a tiling. -/
theorem Tiles.span_cons {text body span rest : Text} {position : Nat} {kind : Kind}
    {lexemes : List Token} (h : Tiles text (position + span.length) lexemes)
    (hsp : Spells kind body span rest) (hr : text.drop position = span ++ rest) :
    Tiles text position (⟨kind, body, position, span.length⟩ :: lexemes) := by
  have hpos := List.length_pos_iff.2 hsp.span_ne_nil
  have hlen := add_length_le_of_drop_eq_append hsp.span_ne_nil hr
  refine ⟨?_, ?_, ?_, ?_, ?_, ?_⟩
  · refine List.forall_mem_cons.2 ⟨Int.le_refl _, ?_⟩
    intro token hm
    have := h.first_le token hm
    omega
  · exact List.forall_mem_cons.2 ⟨Int.natCast_pos.2 hpos, h.length_pos⟩
  · exact List.forall_mem_cons.2 ⟨Int.ofNat_le.2 hlen, h.stop_le⟩
  · exact .cons (fun token hm => h.first_le token hm) h.ordered
  · intro i hp hi hc
    obtain ⟨hout, hc⟩ := List.forall_mem_cons.1 hc
    simp only [Token.stop] at hout
    exact h.blank i (by omega) hi hc
  · exact List.forall_mem_cons.2 ⟨hsp.spelled hr, h.spelled⟩

theorem tiles_of_lexes {text rest : Text} {position : Nat} {lexemes : List Token}
    (h : Lexes position rest lexemes) (hr : text.drop position = rest) :
    Tiles text position lexemes := by
  induction h with
  | nil => exact tiles_nil (List.drop_eq_nil_iff.1 hr)
  | space _ ih => exact Tiles.space_cons (ih (drop_eq_cons_iff.1 hr).2) hr
  | token hsp _ ih => exact Tiles.span_cons (ih (drop_of_drop_eq_append hr)) hsp hr

/-- A span that begins at the offset comes off the front of a tiling. -/
theorem Tiles.tail {text : Text} {position stop : Nat} {token : Token} {lexemes : List Token}
    (h : Tiles text position (token :: lexemes)) (hs : token.stop = stop) :
    Tiles text stop lexemes := by
  obtain ⟨hfirst, hpos, hstop, hord, hblank, hsp⟩ := h
  obtain ⟨hnext, hord⟩ := List.pairwise_cons.1 hord
  refine ⟨?_, (List.forall_mem_cons.1 hpos).2, (List.forall_mem_cons.1 hstop).2, hord, ?_,
    (List.forall_mem_cons.1 hsp).2⟩
  · intro next hm
    exact hs ▸ hnext next hm
  · intro i hp hi hc
    have hlt := (List.forall_mem_cons.1 hfirst).1
    have hn := (List.forall_mem_cons.1 hpos).1
    simp only [Token.stop] at hs
    refine hblank i (by omega) hi (List.forall_mem_cons.2 ⟨?_, hc⟩)
    simp only [Token.stop]
    omega

/-- No span begins at an offset where the first one does not. -/
theorem Tiles.lt_location {text : Text} {position : Nat} {lexemes : List Token}
    (h : Tiles text position lexemes)
    (hne : ∀ token ∈ lexemes.head?, token.location ≠ position) :
    ∀ token ∈ lexemes, (position : Int) < token.location := by
  cases lexemes with
  | nil => exact nofun
  | cons first lexemes =>
      have hf := (List.forall_mem_cons.1 h.first_le).1
      have hn := (List.forall_mem_cons.1 h.length_pos).1
      have hord := (List.pairwise_cons.1 h.ordered).1
      have hne := hne first rfl
      refine List.forall_mem_cons.2 ⟨by omega, ?_⟩
      intro token hm
      have := hord token hm
      simp only [Token.stop] at this
      omega

/-- A space comes off the front of a tiling. -/
theorem Tiles.space {text : Text} {position : Nat} {lexemes : List Token}
    (h : Tiles text position lexemes) (hp : position < text.length)
    (hne : ∀ token ∈ lexemes.head?, token.location ≠ position) :
    text.drop position = ' ' :: text.drop (position + 1) ∧ Tiles text (position + 1) lexemes := by
  have hlt := h.lt_location hne
  have hc : text[position] = ' ' := by
    apply h.blank position (Nat.le_refl _) hp
    intro token hm hcov
    have := hlt token hm
    omega
  refine ⟨by rw [List.drop_eq_getElem_cons hp, hc], hlt, h.length_pos, h.stop_le, h.ordered, ?_,
    h.spelled⟩
  exact fun i hle => h.blank i (Nat.le_of_succ_le hle)

theorem Tiles.eq_nil {text : Text} {position : Nat} {lexemes : List Token}
    (h : Tiles text position lexemes) (hp : text.length ≤ position) : lexemes = [] := by
  cases lexemes with
  | nil => rfl
  | cons token lexemes =>
      have hf := (List.forall_mem_cons.1 h.first_le).1
      have hn := (List.forall_mem_cons.1 h.length_pos).1
      have hs := (List.forall_mem_cons.1 h.stop_le).1
      simp only [Token.stop] at hs
      omega

theorem lexes_of_tiles {text : Text} {position : Nat} {lexemes : List Token}
    (h : Tiles text position lexemes) : Lexes position (text.drop position) lexemes := by
  by_cases hp : position < text.length
  · by_cases hne : ∀ token ∈ lexemes.head?, token.location ≠ position
    · obtain ⟨hd, ht⟩ := h.space hp hne
      rw [hd]
      exact .space (lexes_of_tiles ht)
    · match lexemes, h with
      | [], _ => exact absurd nofun hne
      | token :: lexemes, h =>
          have hl : token.location = position := by simpa using hne
          have hn := (List.forall_mem_cons.1 h.length_pos).1
          have hstop : token.stop = (position + token.length.toNat : Nat) := by
            rw [Token.stop, hl]
            omega
          have ht := lexes_of_tiles (h.tail hstop)
          exact ht.span_cons hl hstop (Nat.le_add_right _ _) (List.forall_mem_cons.1 h.stop_le).1
            (List.forall_mem_cons.1 h.spelled).1
  · have hd : text.drop position = [] := List.drop_eq_nil_iff.2 (Nat.not_lt.1 hp)
    rw [hd, h.eq_nil (Nat.not_lt.1 hp)]
    exact .nil
termination_by text.length - position
decreasing_by
  · omega
  · omega

/-! ## Texts behind lexemes -/

/-- Whether no lexeme goes on with a text that stands behind it. -/
def Detached (text : Text) : Prop :=
  ∀ c ∈ text.head?, c.isDigit = false ∧ c ≠ '&' ∧ c ≠ '|'

theorem detached_nil : Detached [] := nofun

theorem detached_cons {c : Char} (h : c.isDigit = false ∧ c ≠ '&' ∧ c ≠ '|') (text : Text) :
    Detached (c :: text) := by
  rintro _ ⟨⟩
  exact h

theorem Spells.append_detached {kind : Kind} {text span front rest : Text}
    (h : Spells kind text span front) (hd : Detached rest) :
    Spells kind text span (front ++ rest) := by
  refine h.of_head? ?_
  intro c hc
  cases front with
  | nil => exact Or.inr (hd c hc)
  | cons first front => exact Or.inl hc

/-! ## Lexing and scanning -/

namespace Lexer

theorem scan_congr {lexer lexer' : Lexer} (h : lexer.next = lexer'.next) :
    lexer.scan = lexer'.scan := by
  cases hn : lexer'.next.1 with
  | error fault => rw [scan_of_error hn, scan_of_error (h ▸ hn)]
  | ok token =>
      by_cases hk : token.kind = .endOfText
      · rw [scan_of_end hn hk, scan_of_end (h ▸ hn) hk]
      · rw [scan_of_token hn hk, scan_of_token (h ▸ hn) hk, h]

theorem scan_space (position : Nat) (rest : Text) (finished : Bool) :
    scan ⟨position, ' ' :: rest, finished⟩ = scan ⟨position + 1, rest, finished⟩ := by
  refine scan_congr ?_
  rw [next, next, lexeme, if_pos rfl]

theorem scan_nil (position : Nat) (finished : Bool) :
    scan ⟨position, [], finished⟩ = ([.endOfText position], none) :=
  scan_of_end rfl rfl

theorem scan_append {position : Nat} {kind : Kind} {text span rest : Text}
    (h : Spells kind text span rest) (finished : Bool) :
    scan ⟨position, span ++ rest, finished⟩ =
      (⟨kind, text, position, span.length⟩ :: (scan ⟨position + span.length, rest, finished⟩).1,
        (scan ⟨position + span.length, rest, finished⟩).2) := by
  have hn : next ⟨position, span ++ rest, finished⟩ =
      (.ok ⟨kind, text, position, span.length⟩, ⟨position + span.length, rest, finished⟩) := by
    rw [next, lexeme_of_spells position h]
    simp [Reading.atEnd, h.kind_ne]
  rw [scan_of_token (congrArg Prod.fst hn) h.kind_ne, hn]

/-- The lexemes of a text are read off the front of a longer one. -/
theorem scan_append_lexes {position : Nat} {front rest : Text} {lexemes : List Token}
    (h : Lexes position front lexemes) (hd : Detached rest) (finished : Bool) :
    scan ⟨position, front ++ rest, finished⟩ =
      (lexemes ++ (scan ⟨position + front.length, rest, finished⟩).1,
        (scan ⟨position + front.length, rest, finished⟩).2) := by
  induction h with
  | nil => rfl
  | @space position front lexemes _ ih =>
      rw [List.cons_append, scan_space, ih, List.length_cons, Nat.add_comm front.length,
        ← Nat.add_assoc]
  | @token position _ _ span front lexemes hsp _ ih =>
      rw [List.append_assoc, scan_append (hsp.append_detached hd), ih, List.length_append,
        ← Nat.add_assoc]
      rfl

theorem scan_of_lexes {position : Nat} {text : Text} {lexemes : List Token}
    (h : Lexes position text lexemes) (finished : Bool) :
    scan ⟨position, text, finished⟩ =
      (lexemes ++ [.endOfText ((position + text.length : Nat) : Int)], none) := by
  have hs := scan_append_lexes h detached_nil finished
  rwa [List.append_nil, scan_nil] at hs

/-- A scan reads lexemes off the front of a text, up to where it stops. -/
theorem exists_lexes_of_scan (position : Nat) (text : Text) (finished : Bool) :
    ∃ front rest lexemes, text = front ++ rest ∧ Lexes position front lexemes ∧
      Stops (position + front.length) rest (scan ⟨position, text, finished⟩).2 := by
  induction hn : text.length using Nat.strongRecOn generalizing position text with
  | ind n ih =>
      subst hn
      have hr := lexeme_reads position text
      generalize hl : lexeme position text = reading at hr
      cases hr with
      | @space _ rest _ _ =>
          obtain ⟨front, tail, lexemes, rfl, hx, hs⟩ := ih _ (Nat.lt_succ_self _) _ rest rfl
          refine ⟨' ' :: front, tail, lexemes, rfl, .space hx, ?_⟩
          rwa [scan_space, List.length_cons, Nat.add_comm front.length, ← Nat.add_assoc]
      | endOfText =>
          rw [scan_nil]
          exact ⟨[], [], [], rfl, .nil, .endOfText⟩
      | @token _ _ _ span rest hsp =>
          obtain ⟨front, tail, lexemes, rfl, hx, hs⟩ := ih _ hsp.length_lt _ rest rfl
          refine ⟨span ++ front, tail, _, (List.append_assoc ..).symm, .token hsp.of_append hx, ?_⟩
          rwa [scan_append hsp, List.length_append, ← Nat.add_assoc]
      | stray hc =>
          rw [@scan_of_error ⟨position, _, finished⟩ _ (congrArg Reading.outcome hl)]
          exact ⟨[], _, [], rfl, .nil, .stray hc⟩
      | unclosed hq hm =>
          rw [@scan_of_error ⟨position, _, finished⟩ _ (congrArg Reading.outcome hl)]
          exact ⟨[], _, [], rfl, .nil, .unclosed hq hm⟩

theorem lexes_of_scan {position : Nat} {text : Text} {finished : Bool}
    (h : (scan ⟨position, text, finished⟩).2 = none) : ∃ lexemes, Lexes position text lexemes := by
  obtain ⟨front, rest, lexemes, rfl, hx, hs⟩ := exists_lexes_of_scan position text finished
  rw [h] at hs
  cases hs with
  | endOfText =>
      rw [List.append_nil]
      exact ⟨lexemes, hx⟩

end Lexer

/-! ## The tokens of a text -/

theorem scan_append_lexes {front rest : Text} {lexemes : List Token}
    (h : Lexes 0 front lexemes) (hd : Detached rest) :
    scan (front ++ rest) =
      (lexemes ++ (Lexer.scan ⟨front.length, rest, false⟩).1,
        (Lexer.scan ⟨front.length, rest, false⟩).2) := by
  have hs := Lexer.scan_append_lexes h hd false
  rwa [Nat.zero_add] at hs

theorem exists_lexes_stops (text : Text) :
    ∃ front rest lexemes, text = front ++ rest ∧ Lexes 0 front lexemes ∧
      Stops front.length rest (scan text).2 := by
  obtain ⟨front, rest, lexemes, rfl, hx, hs⟩ := Lexer.exists_lexes_of_scan 0 text false
  rw [Nat.zero_add] at hs
  exact ⟨front, rest, lexemes, rfl, hx, hs⟩

theorem tokens_eq_ok_iff_lexes {text : Text} {ts : List Token} :
    tokens text = .ok ts ↔
      ∃ lexemes, ts = lexemes ++ [.endOfText text.length] ∧ Lexes 0 text lexemes := by
  rw [tokens_eq_ok_iff]
  constructor
  · intro h
    obtain ⟨lexemes, hl⟩ := Lexer.lexes_of_scan (congrArg Prod.snd h)
    have hs := h.symm.trans (Lexer.scan_of_lexes hl false)
    rw [Nat.zero_add] at hs
    exact ⟨lexemes, congrArg Prod.fst hs, hl⟩
  · rintro ⟨lexemes, rfl, hl⟩
    have hs := Lexer.scan_of_lexes hl false
    rwa [Nat.zero_add] at hs

/-- The tokens of a text are its tiling, and it has one tiling at most. -/
theorem tokens_meet_tiling (text : Text) :
    (∀ ts, tokens text = .ok ts ↔
      ∃ lexemes, ts = lexemes ++ [.endOfText text.length] ∧ Tiles text 0 lexemes) ∧
    ∀ lexemes lexemes', Tiles text 0 lexemes → Tiles text 0 lexemes' → lexemes = lexemes' := by
  have htiles : ∀ lexemes, Lexes 0 text lexemes ↔ Tiles text 0 lexemes := fun lexemes =>
    ⟨fun h => tiles_of_lexes h List.drop_zero, lexes_of_tiles⟩
  have hiff : ∀ ts, tokens text = .ok ts ↔
      ∃ lexemes, ts = lexemes ++ [.endOfText text.length] ∧ Tiles text 0 lexemes := by
    intro ts
    simp only [tokens_eq_ok_iff_lexes, htiles]
  refine ⟨hiff, ?_⟩
  intro lexemes lexemes' h h'
  have ht := (hiff _).2 ⟨lexemes, rfl, h⟩
  have ht' := (hiff _).2 ⟨lexemes', rfl, h'⟩
  have he := Except.ok.inj (ht.symm.trans ht')
  exact (List.append_inj' he rfl).1

end Calculator

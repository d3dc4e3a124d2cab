import Calculator.Proofs.Decimal
import Calculator.Proofs.LongestPhrase
import Calculator.Proofs.Slicing

/-!
# How large a result can be

A result has no more digits than the numerals that it was calculated from have
together.  For one operator this is arithmetic: what bounds the product of two
numbers also bounds their sum, their difference and their quotient
(`Operator.apply_natAbs_lt`).  For a phrase it is an induction over the grammar
(`Derives.natAbs_lt`).  A phrase of a text has a numeral, and a numeral of a text
has a digit, so that there is a place for the digit of zero (`Derives.within`).

The numbers that the machine keeps on its levels obey the same bound.  A level
holds complete terms and what there is of the next one (`Level.Parts`), and each
number is what some of this means.
-/

namespace Calculator

/-! ## Numbers -/

namespace Numeral

theorem placeValue_pos (places : Nat) : 0 < placeValue places := Nat.pow_pos (by decide)

theorem placeValue_add (m n : Nat) : placeValue (m + n) = placeValue m * placeValue n :=
  Nat.pow_add 10 m n

theorem placeValue_le {m n : Nat} (h : m ≤ n) : placeValue m ≤ placeValue n :=
  Nat.pow_le_pow_right (by decide) h

/-- A number that is smaller than a one in front of some places is written in these. -/
theorem length_writeNat_le {n places : Nat} (hp : 0 < places) (h : n < placeValue places) :
    (writeNat n).length ≤ places := by
  rw [writeNat_eq_toDigits]
  exact (Nat.length_toDigits_le_iff (by decide) hp).2 h

/-- `Within places value`: an integer has no more than some number of digits. -/
structure Within (places : Nat) (value : Int) : Prop where
  natAbs_lt : value.natAbs < placeValue places
  /-- It is written in no more digits, behind a minus sign if it has one. -/
  length_le : (write value).length ≤ (sign value).length + places

theorem within_of_natAbs_lt {places : Nat} {value : Int} (hp : 0 < places)
    (h : value.natAbs < placeValue places) : Within places value := by
  refine ⟨h, ?_⟩
  rw [write_eq_sign, List.length_append]
  exact Nat.add_le_add_left (length_writeNat_le hp h) _

theorem Within.mono {m n : Nat} {value : Int} (h : Within m value) (hle : m ≤ n) :
    Within n value :=
  ⟨Nat.lt_of_lt_of_le h.natAbs_lt (placeValue_le hle),
    Nat.le_trans h.length_le (Nat.add_le_add_left hle _)⟩

end Numeral

open Numeral (placeValue Within)

/-- An operator makes of two numbers one with no more digits than both have together. -/
theorem Operator.apply_natAbs_lt {operator : Operator} {sign : Token} {a b x : Int} {m n : Nat}
    (h : operator.apply sign a b = .ok x) (ha : a.natAbs < placeValue m)
    (hb : b.natAbs < placeValue n) : x.natAbs < placeValue (m + n) := by
  have hm := Numeral.placeValue_pos m
  have hn := Numeral.placeValue_pos n
  -- the product of the bounds is larger than their sum by more than what is missing on each side
  have hsum : a.natAbs + b.natAbs < placeValue m * placeValue n := by
    have hle : placeValue m - 1 ≤ (placeValue m - 1) * placeValue n := Nat.le_mul_of_pos_right _ hn
    have he : (placeValue m - 1) * placeValue n = placeValue m * placeValue n - placeValue n := by
      rw [Nat.sub_mul, Nat.one_mul]
    have hp : placeValue n ≤ placeValue m * placeValue n := Nat.le_mul_of_pos_left _ hm
    omega
  rw [Numeral.placeValue_add]
  cases operator with
  | add =>
      cases h
      exact Nat.lt_of_le_of_lt (Int.natAbs_add_le a b) hsum
  | sub =>
      cases h
      exact Nat.lt_of_le_of_lt (Int.natAbs_sub_le a b) hsum
  | mul =>
      cases h
      rw [Int.natAbs_mul]
      exact Nat.mul_lt_mul'' ha hb
  | div =>
      rw [apply] at h
      split at h
      · cases h
      · cases h
        calc (a.tdiv b).natAbs ≤ a.natAbs := Int.natAbs_tdiv_le_natAbs a b
          _ < placeValue m := ha
          _ ≤ placeValue m * placeValue n := Nat.le_mul_of_pos_right _ hn

theorem Operator.join_natAbs_lt {operator : Operator} {sign : Token} {v w : Except Token Int}
    {x : Int} {m n : Nat} (h : Except.ok x = operator.join sign v w)
    (hv : ∀ a, Except.ok a = v → a.natAbs < placeValue m)
    (hw : ∀ b, Except.ok b = w → b.natAbs < placeValue n) : x.natAbs < placeValue (m + n) := by
  cases v with
  | error slash => cases h
  | ok a =>
      cases w with
      | error slash => cases h
      | ok b => exact apply_natAbs_lt h.symm (hv a rfl) (hw b rfl)

/-! ## Phrases -/

/-- The digits of a token. -/
def Token.digits (token : Token) : Text := if token.kind = .numeric then token.text else []

/-- The number of digits in the numerals among tokens. -/
def digitCount (ts : List Token) : Nat := (ts.flatMap Token.digits).length

theorem digitCount_append (ts us : List Token) :
    digitCount (ts ++ us) = digitCount ts + digitCount us := by
  rw [digitCount, List.flatMap_append, List.length_append]
  rfl

theorem digitCount_singleton (token : Token) : digitCount [token] = token.digits.length := by
  rw [digitCount, List.flatMap_singleton]

theorem digitCount_cons (token : Token) (ts : List Token) :
    digitCount (token :: ts) = token.digits.length + digitCount ts := by
  rw [← digitCount_singleton, ← digitCount_append, List.singleton_append]

/-- A punctuator has no digits. -/
theorem Token.digits_eq_nil {token : Token} {text : Text} (h : token.isPunctuator text = true) :
    token.digits = [] := by
  rw [digits, if_neg]
  rw [(is_iff.1 h).1]
  decide

/-- Two operands have all the digits between them. -/
theorem digitCount_join {ts us : List Token} {sign : Token} {text : Text}
    (h : sign.isPunctuator text = true) :
    digitCount (ts ++ sign :: us) = digitCount ts + digitCount us := by
  rw [digitCount_append, digitCount_cons, Token.digits_eq_nil h, List.length_nil, Nat.zero_add]

/-- Parentheses have none. -/
theorem digitCount_parentheses {left right : Token} {ts : List Token}
    (hl : left.isPunctuator ['('] = true) (hr : right.isPunctuator [')'] = true) :
    digitCount (left :: (ts ++ [right])) = digitCount ts := by
  rw [digitCount_cons, digitCount_append, digitCount_singleton, Token.digits_eq_nil hl,
    Token.digits_eq_nil hr, List.length_nil, Nat.zero_add, Nat.add_zero]

/-- Whether the numerals among tokens are digits. -/
def Digital (ts : List Token) : Prop :=
  ∀ token ∈ ts, token.kind = .numeric → ∀ c ∈ token.text, c.isDigit = true

theorem Digital.subset {ts us : List Token} (h : Digital us) (hs : ts ⊆ us) : Digital ts :=
  fun token hm => h token (hs hm)

theorem Digital.left {ts us : List Token} (h : Digital (ts ++ us)) : Digital ts :=
  h.subset (List.subset_append_left ts us)

theorem Digital.right {ts us : List Token} (h : Digital (ts ++ us)) : Digital us :=
  h.subset (List.subset_append_right ts us)

theorem Digital.tail {token : Token} {ts : List Token} (h : Digital (token :: ts)) : Digital ts :=
  h.subset (List.subset_cons_self token ts)

/-- A phrase means a number with no more digits than its numerals have together. -/
theorem Derives.natAbs_lt {p : Phrase} {ts : List Token} {x : Int} (h : Derives p ts (.ok x))
    (hd : Digital ts) : x.natAbs < placeValue (digitCount ts) := by
  generalize hv : Except.ok x = v at h
  induction h generalizing x with
  | @numeral token hk =>
      cases hv
      rw [digitCount_singleton, Token.digits, if_pos hk, Int.natAbs_natCast]
      exact Numeral.ofDigits_lt (hd token (List.mem_singleton_self _) hk)
  | parentheses hl _ hr ih =>
      rw [digitCount_parentheses hl hr]
      exact ih hd.tail.left hv
  | factor _ ih => exact ih hd hv
  | term _ ih => exact ih hd hv
  | product _ hs _ _ ihl ihr =>
      rw [digitCount_join hs]
      exact Operator.join_natAbs_lt hv (fun _ => ihl hd.left) fun _ => ihr hd.right.tail
  | sum _ hs _ _ ihl ihr =>
      rw [digitCount_join hs]
      exact Operator.join_natAbs_lt hv (fun _ => ihl hd.left) fun _ => ihr hd.right.tail

/-- There is a numeral in each phrase. -/
theorem Derives.exists_numeric {p : Phrase} {ts : List Token} {v : Except Token Int}
    (h : Derives p ts v) : ∃ token ∈ ts, token.kind = .numeric := by
  induction h with
  | numeral hk => exact ⟨_, List.mem_singleton_self _, hk⟩
  | parentheses _ _ _ ih =>
      obtain ⟨token, hm, hk⟩ := ih
      exact ⟨token, List.mem_cons_of_mem _ (List.mem_append_left _ hm), hk⟩
  | factor _ ih => exact ih
  | term _ ih => exact ih
  | product _ _ _ _ ih _ =>
      obtain ⟨token, hm, hk⟩ := ih
      exact ⟨token, List.mem_append_left _ hm, hk⟩
  | sum _ _ _ _ ih _ =>
      obtain ⟨token, hm, hk⟩ := ih
      exact ⟨token, List.mem_append_left _ hm, hk⟩

theorem digitCount_pos {ts : List Token} {token : Token} (hm : token ∈ ts)
    (hk : token.kind = .numeric) (hn : token.text ≠ []) : 0 < digitCount ts := by
  obtain ⟨front, rest, rfl⟩ := List.append_of_mem hm
  rw [digitCount_append, digitCount_cons, Token.digits, if_pos hk]
  have := List.length_pos_iff.2 hn
  omega

/-- A phrase of a text has a number within the digits of its numerals. -/
theorem Derives.within {text : Text} {p : Phrase} {ts : List Token} {x : Int}
    (h : Derives p ts (.ok x)) (ht : ∀ token ∈ ts, Taken text (.ok token)) :
    Within (digitCount ts) x := by
  obtain ⟨token, hm, hk⟩ := h.exists_numeric
  have hpos := digitCount_pos hm hk ((ht token hm).isNumeral hk).text_ne_nil
  exact Numeral.within_of_natAbs_lt hpos
    (h.natAbs_lt fun token hm hk => ((ht token hm).isNumeral hk).isDigit)

/-! ## Levels -/

namespace Level

/-- `Parts phase level front term sign`: what a level comes from.  Behind complete terms stands what
there is of the term in progress, and perhaps a sign with which this goes on. -/
structure Parts (phase : Phase) (level : Level) (front term : List Token) (sign : Option Token) :
    Prop where
  leads : level.Leads front
  derives : term ≠ [] → Derives level.phrase.unit term (.ok level.product)
  isPunctuator : ∀ token ∈ sign, token.isPunctuator ['*'] = true ∨ token.isPunctuator ['/'] = true
  ne_nil : phase = .operator → term ≠ []

/-- The numbers of a level are within the digits of what they come from. -/
structure Bounded (phase : Phase) (level : Level) (front term : List Token)
    (sign : Option Token) : Prop extends Parts phase level front term sign where
  total_lt : level.total.natAbs < placeValue (digitCount front)
  product_lt : term ≠ [] → level.product.natAbs < placeValue (digitCount term)
  value_lt : term ≠ [] → level.value.natAbs < placeValue (digitCount (front ++ term))

theorem Holds.exists_parts {phase : Phase} {level : Level} {ts : List Token}
    (h : Holds phase level ts) :
    ∃ front term sign, ts = front ++ (term ++ sign.toList) ∧ Parts phase level front term sign := by
  cases h with
  | first hl hp hs =>
      exact ⟨ts, [], none, (List.append_nil ts).symm, hl, absurd rfl, nofun, nofun⟩
  | @sign level us vs token operator hp hl hv ht ho =>
      have hu : level.phrase.unit = .term := Phrase.unit_of_ne_factor hp
      rw [← hu] at hv
      refine ⟨us, vs, some token, rfl, ?_, fun _ => ?_, ?_, nofun⟩
      · rcases ho with rfl | rfl
        · exact hl
        · exact hl
      · rcases ho with rfl | rfl
        · exact hv
        · exact hv
      · rintro _ ⟨⟩
        rcases ho with rfl | rfl
        · exact Or.inl ht
        · exact Or.inr ht
  | @behind level us vs x hl hd =>
      exact ⟨us, vs, none, by rw [Option.toList_none, List.append_nil], hl, fun _ => hd, nofun,
        fun _ => hd.ne_nil⟩

/-- The complete terms of a level are within their digits. -/
theorem Leads.total_lt {level : Level} {us : List Token} (h : level.Leads us) (hd : Digital us) :
    level.total.natAbs < placeValue (digitCount us) := by
  -- a numeral without digits makes a phrase of them and adds nothing
  let zero := Token.lexeme .numeric [] 0
  have hz : Derives .factor [zero] (.ok 0) := .numeral rfl
  have hv : (level.behind 0).value = level.total := by
    simp [Level.behind, Level.value]
  have hl := h [zero] _ (hz.unit _)
  change Derives _ _ (.ok (level.behind 0).value) at hl
  rw [hv] at hl
  have hdz : Digital (us ++ [zero]) := by
    refine List.forall_mem_append.2 ⟨hd, List.forall_mem_singleton.2 fun _ _ hc => ?_⟩
    cases hc
  have hlt := hl.natAbs_lt hdz
  rwa [digitCount_append] at hlt

theorem Parts.bounded {phase : Phase} {level : Level} {front term : List Token}
    {sign : Option Token} (h : Parts phase level front term sign) (hd : Digital (front ++ term)) :
    Bounded phase level front term sign where
  toParts := h
  total_lt := h.leads.total_lt hd.left
  product_lt := fun hne => (h.derives hne).natAbs_lt hd.right
  value_lt := fun hne => (h.leads _ _ (h.derives hne)).natAbs_lt hd

end Level

namespace Stack

/-- The numbers of all levels are within the digits of what they come from. -/
inductive Bounded : Stack → List Token → Prop where
  | outermost {phase : Phase} {level : Level} {front term : List Token} {sign : Option Token} :
      Level.Bounded phase level front term sign →
      Bounded ⟨phase, level, []⟩ (front ++ (term ++ sign.toList))
  | inner {phase : Phase} {inner level : Level} {outer : List Level} {left : Token}
      {ts front term : List Token} {sign : Option Token} :
      Bounded ⟨.operand, level, outer⟩ ts →
      left.isPunctuator ['('] = true →
      Level.Bounded phase inner front term sign →
      Bounded ⟨phase, inner, level :: outer⟩ (ts ++ left :: (front ++ (term ++ sign.toList)))

theorem Holds.bounded {p : Phrase} {stack : Stack} {ts : List Token} (h : Holds p stack ts)
    (hd : Digital ts) : stack.Bounded ts := by
  induction h with
  | outermost _ hl =>
      obtain ⟨front, term, sign, rfl, hp⟩ := hl.exists_parts
      rw [← List.append_assoc] at hd
      exact .outermost (hp.bounded hd.left)
  | inner _ hleft _ hl ih =>
      obtain ⟨front, term, sign, rfl, hp⟩ := hl.exists_parts
      have hi := hd.right.tail
      rw [← List.append_assoc] at hi
      exact .inner (ih hd.left) hleft (hp.bounded hi.left)

end Stack

/-! ## Texts -/

/-- The numerals among tokens have no more digits than the text. -/
theorem Lexes.digitCount_le {position : Nat} {text : Text} {ts : List Token}
    (h : Lexes position text ts) : digitCount ts ≤ text.countP Char.isDigit := by
  induction h with
  | nil => exact Nat.le_refl _
  | space _ ih => exact Nat.le_trans ih (List.sublist_cons_self _ _).countP_le
  | @token position kind body span rest lexemes hsp _ ih =>
      rw [digitCount_cons, List.countP_append]
      refine Nat.add_le_add ?_ ih
      rw [Token.digits]
      split
      · rename_i hk
        cases hsp with
        | numeral _ hd _ => exact Nat.le_of_eq (List.countP_eq_length.2 hd).symm
        | pair _ => cases hk
        | single _ _ => cases hk
        | literal _ _ => cases hk
      · exact Nat.zero_le _

/-- The value of an expression is within its digits. -/
theorem within_of_evaluateWithin {limit : Option Nat} {text : Text} {v : Int}
    (h : evaluateWithin limit text = .ok v) : Within (text.countP Char.isDigit) v := by
  have hv := verdict limit text
  rw [h] at hv
  generalize hr : Except.ok v = result at hv
  cases hv with
  | @value ts last level hs hf =>
      cases hr
      obtain ⟨lexemes, hx⟩ := Lexer.lexes_of_scan (congrArg Prod.snd hs)
      have he := hs.symm.trans (Lexer.scan_of_lexes hx false)
      obtain ⟨rfl, -⟩ := List.append_inj' (congrArg Prod.fst he) rfl
      have ht := (Lexer.stands_ofText text).taken_scan
      rw [show (Lexer.ofText text).scan = _ from hs] at ht
      have hw := (Stack.derives_of_feed hf).within fun token hm =>
        ht token (List.mem_append_left _ hm)
      exact hw.mono hx.digitCount_le
  | refused _ _ _ _ _ => cases hr
  | divided _ _ _ => cases hr
  | unreadFirst _ => cases hr
  | unread _ _ _ => cases hr
  | tooDeep _ _ _ _ => cases hr

/-! ## Runs -/

/-- The tokens that a run accepts were taken off the text. -/
theorem State.Reaches.taken {text : Text} {limit : Option Nat} {state last : State}
    {ts : List Token} {faults : List Fault} (h : Reaches limit state ts last)
    (hp : state.reader.Poised text faults) : ∀ token ∈ ts, Taken text (.ok token) := by
  have ht := hp.taken_ahead
  rw [h.ahead] at ht
  exact fun token hm => ht token (List.mem_append_left _ hm)

/-- `Reader.Modest reader`: no number that a reader calculates has more digits than it has read. -/
structure Reader.Modest (reader : Reader) : Prop where
  /-- The value of a phrase is within the digits of its tokens. -/
  phrase : ∀ limit phrase v, (reader.phraseWithin limit phrase).1 = .ok v →
    ∃ ts next rest, reader.Faces limit phrase v ts next rest ∧ Within (digitCount ts) v
  /-- While it is calculated, so are the numbers of all levels. -/
  levels : ∀ limit phrase ts state, State.Reaches limit (.start phrase reader) ts state →
    state.stack.Bounded ts
  /-- So is what any phrase means that is among the tokens accepted. -/
  phrases : ∀ limit phrase ts state, State.Reaches limit (.start phrase reader) ts state →
    ∀ p us w, us <:+: ts → Derives p us (.ok w) → Within (digitCount us) w

theorem Reader.Poised.modest {text : Text} {reader : Reader} {faults : List Fault}
    (h : reader.Poised text faults) : reader.Modest where
  phrase := by
    intro limit phrase v hv
    obtain ⟨ts, next, rest, hf⟩ := exists_faces hv
    have ht := h.taken_ahead
    rw [hf.ahead_eq] at ht
    exact ⟨ts, next, rest, hf, hf.derives.within fun token hm =>
      ht token (List.mem_append_left _ hm)⟩
  levels := by
    intro limit phrase ts state hr
    have ht := @State.Reaches.taken text _ _ _ _ faults hr h
    exact (Stack.holds_of_feed hr.feed).bounded fun token hm hk =>
      ((ht token hm).isNumeral hk).isDigit
  phrases := by
    intro limit phrase ts state hr p us w hi hd
    have ht := @State.Reaches.taken text _ _ _ _ faults hr h
    exact hd.within fun token hm => ht token (hi.subset hm)

/-- A result has no more digits than the expression, and no number on the way to it has more than
were read for it, wherever requests have left the reader. -/
theorem results_within :
    (∀ limit text v, evaluateWithin limit text = .ok v → Within (text.countP Char.isDigit) v) ∧
    ∀ text reader, Reader.ofText text = .ok reader →
      ∀ requests, (reader.performAll requests).Modest := by
  refine ⟨fun _ _ _ => within_of_evaluateWithin, ?_⟩
  intro text reader ho requests
  obtain ⟨faults, hp⟩ := Reader.exists_poised_performAll ho requests
  exact hp.modest

/-- A difference is multiplied, and the product has fewer digits than both sides. -/
theorem results_within_product :
    evaluateWithin (some openLimit) "99*(8-17)".toList = .ok (-891) ∧ Within 5 (-891) ∧
      ∃ reader, Reader.ofText "99*(8-17)".toList = .ok reader ∧
        (reader.performAll [.phrase none .factor]).Modest := by
  have he : evaluateWithin (some openLimit) "99*(8-17)".toList = .ok (-891) := by
    with_unfolding_all rfl
  have ho : Reader.ofText "99*(8-17)".toList =
      .ok ⟨.lexeme .numeric ['9', '9'] 0, ⟨2, "*(8-17)".toList, false⟩⟩ := rfl
  exact ⟨he, results_within.1 _ _ _ he, _, ho, results_within.2 _ _ ho _⟩

end Calculator

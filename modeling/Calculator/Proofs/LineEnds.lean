import Mathlib.Data.List.DropRight
import Calculator.Command.Argument
import Calculator.Command.Document
import Calculator.Proofs.ControlSequences
import Calculator.Proofs.Depth

/-!
# Documents and arguments

A document and an argument are calculated alike.  What stands between them are
the line ends of the document.  `Lines.plain` says what becomes of them, in
three passes over the whole text: each pair of a carriage return and a line feed
becomes a line feed, each carriage return that is left becomes one, and the line
feeds at the end are dropped.  The document is read in another way, in one pass
and with another test at the end, and this comes to the same
(`Document.expression_eq_plain`).

So line ends behind a document make no difference.  A line feed may be paired
with a carriage return in front of it, and then it adds no line end at all
(`Lines.exists_unify_append`).  What is added is dropped in either case.

The two commands need not have the same limit on open parentheses.  Where a
calculation is not as deep as any limit, it is not seen which limit each of them
has.  Where it is deeper than all of them, both commands fail alike, but each has
its caret below the parenthesis that is too many for its own limit
(`ClearOfLimits.agreeWithin`).  So their diagnostics can differ
(`caret_depends_on_limit`).
-/

namespace Calculator

namespace Lines

/-! ## Three passes -/

/-- A line feed for each pair of a carriage return and a line feed. -/
def joinPairs : Text → Text
  | [] => []
  | '\r' :: '\n' :: rest => '\n' :: joinPairs rest
  | c :: rest => c :: joinPairs rest

/-- A line feed for a carriage return. -/
def lineFeed (c : Char) : Char := if c = '\r' then '\n' else c

/-- A text with line feeds for all line ends, and none of them last in it. -/
def plain (text : Text) : Text := ((joinPairs text).map lineFeed).rdropWhile (· == '\n')

/-- One pass that looks at two characters does what two passes do. -/
theorem unify_eq_map (text : Text) : unify text = (joinPairs text).map lineFeed := by
  fun_induction unify text with
  | case1 => rfl
  | case2 rest ih => rw [joinPairs, List.map_cons, ih]; rfl
  | case3 rest hpair ih =>
      rw [joinPairs, List.map_cons, ih]
      · rfl
      · exact fun rest _ => hpair rest
  | case4 c rest hpair hreturn ih =>
      have hc : lineFeed c = c := if_neg hreturn
      rw [joinPairs, List.map_cons, ih, hc]
      exact fun rest hc _ => hreturn hc

/-- Once line ends are unified, only line feeds are left to be dropped. -/
theorem trim_eq_rdropWhile {text : Text} (h : '\r' ∉ text) :
    trim text = text.rdropWhile (· == '\n') := by
  induction text using List.reverseRecOn with
  | nil => rfl
  | append_singleton text c ih =>
      obtain ⟨htext, hc⟩ : '\r' ∉ text ∧ '\r' ∉ [c] := by simpa [not_or] using h
      have hend : isEnd c = (c == '\n') := by
        have hne : (c == '\r') = false := beq_eq_false_iff_ne.2 fun he => hc (by simp [he])
        rw [isEnd, hne, Bool.or_false]
      show (text ++ [c]).rdropWhile isEnd = _
      rw [List.rdropWhile_concat, List.rdropWhile_concat, hend, ← ih htext]
      rfl

theorem return_not_mem_map (text : Text) : '\r' ∉ text.map lineFeed := by
  intro hm
  obtain ⟨c, -, hc⟩ := List.mem_map.1 hm
  rw [lineFeed] at hc
  split at hc
  · cases hc
  · contradiction

/-! ## Line ends at the end -/

theorem unify_return {text : Text} (h : text.head? ≠ some '\n') :
    unify ('\r' :: text) = '\n' :: unify text := by
  rw [unify]
  rintro rest rfl
  exact h rfl

/-- What is added to a text is unified behind it, but for a line feed that may be paired. -/
theorem exists_unify_append (text ends : Text) :
    ∃ rest, rest <:+ ends ∧ unify (text ++ ends) = unify text ++ unify rest := by
  fun_induction unify text with
  | case1 => exact ⟨ends, List.suffix_refl ends, rfl⟩
  | case2 text ih =>
      obtain ⟨rest, hs, he⟩ := ih
      exact ⟨rest, hs, congrArg ('\n' :: ·) he⟩
  | case3 text hpair ih =>
      by_cases hhead : (text ++ ends).head? = some '\n'
      · -- the line feed is the first of those added, and it is paired
        cases text with
        | nil =>
            obtain ⟨ends, rfl⟩ := List.head?_eq_some_iff.1 hhead
            exact ⟨ends, List.suffix_cons '\n' ends, rfl⟩
        | cons c text => exact absurd (congrArg (· :: text) (Option.some.inj hhead)) (hpair text)
      · obtain ⟨rest, hs, he⟩ := ih
        exact ⟨rest, hs, (unify_return hhead).trans (congrArg ('\n' :: ·) he)⟩
  | case4 c text hpair hreturn ih =>
      obtain ⟨rest, hs, he⟩ := ih
      refine ⟨rest, hs, ?_⟩
      rw [List.cons_append, unify, he, List.cons_append]
      · exact fun rest hc _ => hreturn hc
      · exact hreturn

/-- Unifying brings in line feeds only. -/
theorem mem_unify {text : Text} {c : Char} (h : c ∈ unify text) : c = '\n' ∨ c ∈ text := by
  fun_induction unify text with
  | case1 => cases h
  | case2 text ih =>
      rcases List.mem_cons.1 h with rfl | h
      · exact Or.inl rfl
      · exact (ih h).imp_right fun hm => List.mem_cons_of_mem _ (List.mem_cons_of_mem _ hm)
  | case3 text _ ih =>
      rcases List.mem_cons.1 h with rfl | h
      · exact Or.inl rfl
      · exact (ih h).imp_right (List.mem_cons_of_mem _)
  | case4 c' text _ _ ih =>
      rcases List.mem_cons.1 h with rfl | h
      · exact Or.inr List.mem_cons_self
      · exact (ih h).imp_right (List.mem_cons_of_mem _)

theorem trim_append {text ends : Text} (h : ∀ c ∈ ends, isEnd c = true) :
    trim (text ++ ends) = trim text := by
  have hends : ∀ c ∈ ends.reverse, isEnd c = true := fun c hm => h c (List.mem_reverse.1 hm)
  rw [trim, trim, List.reverse_append, List.dropWhile_append_of_pos hends]

end Lines

namespace Document

/-- The expression in a document, in passes over the whole text. -/
theorem expression_eq_plain (text : Text) : expression text = Lines.plain text := by
  rw [expression, Lines.unify_eq_map, Lines.trim_eq_rdropWhile (Lines.return_not_mem_map _)]
  rfl

/-- Line ends behind a document are not part of its expression. -/
theorem expression_append {text ends : Text} (h : ∀ c ∈ ends, c = '\r' ∨ c = '\n') :
    expression (text ++ ends) = expression text := by
  obtain ⟨rest, hs, he⟩ := Lines.exists_unify_append text ends
  have hrest : ∀ c ∈ Lines.unify rest, Lines.isEnd c = true := by
    intro c hm
    rcases Lines.mem_unify hm with rfl | hm
    · rfl
    · rcases h c (hs.subset hm) with rfl | rfl
      · rfl
      · rfl
  rw [expression, expression, he, Lines.trim_append hrest]

/-- On standard output a document comes to what its expression comes to as an argument. -/
theorem calculateWithin_eq_argument {target : Target} (h : target ≠ .file) (limit : Option Nat)
    (text : Text) :
    calculateWithin limit text target = Argument.calculateWithin limit (expression text) := by
  rw [calculateWithin, Argument.calculateWithin]
  cases target with
  | standardOutput => rfl
  | dash => rfl
  | file => exact absurd rfl h

theorem runWithin_eq_argument {source : Source} {text : Text} (hs : source.text? = some text)
    {target : Target} (ht : target ≠ .file) (limit : Option Nat) :
    runWithin limit source target = some (Argument.calculateWithin limit (Lines.plain text)) := by
  rw [runWithin_of_text? hs, calculateWithin_eq_argument ht, expression_eq_plain]

end Document

theorem Argument.runWithin_calculate (limit : Option Nat) (expression : Text) :
    runWithin limit ["--".toList, expression] = some (calculateWithin limit expression) := rfl

/-! ## Limits -/

/-- Whether a calculation is less deep than any limit that may be set, or deeper. -/
def ClearOfLimits (text : Text) : Prop :=
  DepthAtMost 200 text ∨ ∃ reader ts state, Reader.ofText text = .ok reader ∧
    State.Reaches none (.start .expression reader) ts state ∧ 1000 ≤ state.depth

theorem evaluateWithin_of_depthAtMost {m n : Nat} {text : Text} (h : DepthAtMost m text)
    (hmn : m ≤ n) : evaluateWithin (some n) text = evaluateWithin none text :=
  evaluateWithin_eq_none (not_tooDeep_of_depthAtMost h hmn)

theorem exists_tooDeep_of_depth {n : Nat} {text : Text} {reader : Reader} {ts : List Token}
    {state : State} (ho : Reader.ofText text = .ok reader)
    (hr : State.Reaches none (.start .expression reader) ts state) (hn : n < state.depth) :
    ∃ token, evaluateWithin (some n) text = .error (.nestingTooDeep token) := by
  have ht := exists_tooDeep_of_reaches ho hr hn (text.drop state.reader.token.stop.toNat)
  rwa [List.take_append_drop] at ht

/-- Two limits make no difference but to the parenthesis that is one too many. -/
theorem ClearOfLimits.evaluateWithin {text : Text} (h : ClearOfLimits text) {m n : Nat}
    (hm : 200 ≤ m ∧ m < 1000) (hn : 200 ≤ n ∧ n < 1000) :
    evaluateWithin (some m) text = evaluateWithin (some n) text ∨
      ∃ token token', evaluateWithin (some m) text = .error (.nestingTooDeep token) ∧
        evaluateWithin (some n) text = .error (.nestingTooDeep token') := by
  rcases h with h | ⟨reader, ts, state, ho, hr, hd⟩
  · left
    rw [evaluateWithin_of_depthAtMost h hm.1, evaluateWithin_of_depthAtMost h hn.1]
  · right
    obtain ⟨token, ht⟩ := exists_tooDeep_of_depth ho hr (Nat.lt_of_lt_of_le hm.2 hd)
    obtain ⟨token', ht'⟩ := exists_tooDeep_of_depth ho hr (Nat.lt_of_lt_of_le hn.2 hd)
    exact ⟨token, token', ht, ht'⟩

/-! ## Outcomes -/

/-- What a command does about a parenthesis too many, with its caret in a column. -/
def Outcome.tooDeep (expression : Text) (column : Nat) : Outcome :=
  ⟨1, [], ControlSequence.strip expression ++ '\n' :: List.replicate column ' ' ++
    "^ expression nested too deeply\n".toList, none⟩

theorem Outcome.failed_nestingTooDeep (token : Token) (expression : Text) :
    failed (.nestingTooDeep token) expression = tooDeep expression token.location.toNat := by
  have hsummary : ControlSequence.escapeChar ∉ (Fault.nestingTooDeep token).notice.summary := by
    show _ ∉ "expression nested too deeply".toList
    decide
  rw [failed, tooDeep, Fault.diagnostic, Notice.strip_diagnostic hsummary, Notice.diagnostic]
  simp only [List.append_assoc]
  rfl

/-- The column of a caret is told by standard error. -/
theorem Outcome.column_eq {expression : Text} {column column' : Nat}
    (h : (tooDeep expression column).stderr = (tooDeep expression column').stderr) :
    column = column' := by
  have hlength := congrArg List.length h
  simp only [tooDeep, List.length_append, List.length_cons, List.length_replicate] at hlength
  omega

/-- Whether two outcomes for an expression, one with each of two limits, are the same but for the
columns of their carets below a parenthesis too many. -/
inductive AgreeWithin (m n : Nat) (expression : Text) : Outcome → Outcome → Prop where
  | same {outcome : Outcome} : AgreeWithin m n expression outcome outcome
  | tooDeep {token token' : Token} :
      evaluateWithin (some m) expression = .error (.nestingTooDeep token) →
      evaluateWithin (some n) expression = .error (.nestingTooDeep token') →
      AgreeWithin m n expression (.tooDeep expression token.location.toNat)
        (.tooDeep expression token'.location.toNat)

theorem Argument.calculateWithin_of_tooDeep {limit : Option Nat} {expression : Text} {token : Token}
    (h : evaluateWithin limit expression = .error (.nestingTooDeep token)) :
    calculateWithin limit expression = .tooDeep expression token.location.toNat := by
  rw [calculateWithin, h]
  exact Outcome.failed_nestingTooDeep token expression

theorem ClearOfLimits.agreeWithin {text : Text} (h : ClearOfLimits text) {m n : Nat}
    (hm : 200 ≤ m ∧ m < 1000) (hn : 200 ≤ n ∧ n < 1000) :
    AgreeWithin m n text (Argument.calculateWithin (some m) text)
      (Argument.calculateWithin (some n) text) := by
  rcases h.evaluateWithin hm hn with he | ⟨token, token', ht, ht'⟩
  · rw [Argument.calculateWithin, he]
    exact .same
  · rw [Argument.calculateWithin_of_tooDeep ht, Argument.calculateWithin_of_tooDeep ht']
    exact .tooDeep ht ht'

/-! ## Both commands -/

/-- A document comes to what its expression, with line ends as they are read, comes to as an
argument.  With limits of their own the two commands can differ in the column of the caret below a
parenthesis too many.  Line ends behind a document change nothing. -/
theorem document_agrees_with_argument :
    (∀ source target text, Document.Source.text? source = some text → target ≠ .file →
      ∀ limit, ∃ outcome, Document.runWithin limit source target = some outcome ∧
        Argument.runWithin limit ["--".toList, Lines.plain text] = some outcome) ∧
    (∀ source target text, Document.Source.text? source = some text → target ≠ .file →
      ClearOfLimits (Lines.plain text) → ∀ m n, 200 ≤ m ∧ m < 1000 → 200 ≤ n ∧ n < 1000 →
      ∃ outcome outcome', Document.runWithin (some m) source target = some outcome ∧
        Argument.runWithin (some n) ["--".toList, Lines.plain text] = some outcome' ∧
        AgreeWithin m n (Lines.plain text) outcome outcome') ∧
    ∀ source source' target text ends, Document.Source.text? source = some text →
      Document.Source.text? source' = some (text ++ ends) → (∀ c ∈ ends, c = '\r' ∨ c = '\n') →
      ∀ limit,
        Document.runWithin limit source' target = Document.runWithin limit source target := by
  refine ⟨?_, ?_, ?_⟩
  · intro source target text hs ht limit
    exact ⟨_, Document.runWithin_eq_argument hs ht limit, Argument.runWithin_calculate limit _⟩
  · intro source target text hs ht hclear m n hm hn
    exact ⟨_, _, Document.runWithin_eq_argument hs ht (some m),
      Argument.runWithin_calculate (some n) _, hclear.agreeWithin hm hn⟩
  · intro source source' target text ends hs hs' he limit
    rw [Document.runWithin_of_text? hs, Document.runWithin_of_text? hs', Document.calculateWithin,
      Document.calculateWithin, Document.expression_append he]

/-! ## Deep documents -/

theorem Lines.plain_openings (n : Nat) : plain (openings n) = openings n := by
  have hmem : ∀ c ∈ openings n, c = '(' := fun c hm => List.eq_of_mem_replicate hm
  have hreturn : '\r' ∉ openings n := fun hm => by cases hmem _ hm
  have hend : ∀ c ∈ openings n, isEnd c = false := by
    intro c hm
    rw [hmem c hm]
    rfl
  rw [← Document.expression_eq_plain, Document.expression, unify_eq_self hreturn,
    trim_eq_self hend]

/-- A text that opens many parentheses is deeper than any limit. -/
theorem clearOfLimits_openings {n : Nat} (h : 1000 ≤ n + 1) : ClearOfLimits (openings (n + 1)) := by
  obtain ⟨ts, hr⟩ := State.reaches_opened 0 n 0
  rw [Nat.zero_add] at hr
  exact Or.inr ⟨_, ts, _, Reader.ofText_openings n, hr, h.trans_eq (State.depth_opened n 0).symm⟩

/-- A carriage return at the end of a document may be paired with what is added to it.  A text of
parentheses is too deep for any two limits. -/
theorem document_agrees_with_argument_pair :
    Lines.plain "1?\r\n2\r".toList = "1?\n2".toList ∧
    (∃ outcome outcome',
      Document.runWithin (some 200) (.dash "1?\r\n2\r".toList) .standardOutput = some outcome ∧
      Argument.runWithin (some 999) ["--".toList, "1?\n2".toList] = some outcome' ∧
      AgreeWithin 200 999 "1?\n2".toList outcome outcome') ∧
    (∃ outcome outcome',
      Document.runWithin (some 200) (.dash (openings 1000)) .standardOutput = some outcome ∧
      Argument.runWithin (some 999) ["--".toList, openings 1000] = some outcome' ∧
      AgreeWithin 200 999 (openings 1000) outcome outcome') ∧
    Document.run (.file "1?\r\n2\r\n\r".toList) .standardOutput =
      Document.run (.dash "1?\r\n2\r".toList) .standardOutput := by
  have hplain : Lines.plain "1?\r\n2\r".toList = "1?\n2".toList := by decide
  have hclear : ClearOfLimits "1?\n2".toList :=
    Or.inl (depthAtMost_of_opensAtMost (opensAtMost_of_not_mem (by decide) 199))
  have hclear' : ClearOfLimits (Lines.plain (openings 1000)) := by
    rw [Lines.plain_openings]
    exact clearOfLimits_openings (Nat.le_refl _)
  obtain ⟨-, hagree, hends⟩ := document_agrees_with_argument
  have hout : Document.Target.standardOutput ≠ .file := fun he => nomatch he
  have hdeep := hagree (.dash (openings 1000)) _ _ rfl hout hclear' 200 999 (by omega) (by omega)
  rw [Lines.plain_openings] at hdeep
  rw [← hplain] at hclear ⊢
  refine ⟨rfl, ?_, hdeep, ?_⟩
  · exact hagree (.dash _) _ _ rfl hout hclear 200 999 (by omega) (by omega)
  · exact hends (.dash _) (.file _) .standardOutput "1?\r\n2\r".toList "\n\r".toList rfl rfl
      (by simp) (some openLimit)

/-- With limits that differ by one parenthesis the two commands differ on standard error, by a
space. -/
theorem caret_depends_on_limit :
    ClearOfLimits (Lines.plain (openings 1000)) ∧
    ∃ outcome outcome',
      Document.runWithin (some 500) (.standardInput (openings 1000)) .standardOutput =
        some outcome ∧
      Argument.runWithin (some 499) ["--".toList, Lines.plain (openings 1000)] = some outcome' ∧
      outcome = .tooDeep (openings 1000) 500 ∧ outcome' = .tooDeep (openings 1000) 499 ∧
      outcome.stderr ≠ outcome'.stderr := by
  have hdocument : Document.runWithin (some 500) (.standardInput (openings 1000))
      .standardOutput = some (.tooDeep (openings 1000) 500) := by
    have hout : Document.Target.standardOutput ≠ .file := fun he => nomatch he
    rw [Document.runWithin_eq_argument rfl hout, Lines.plain_openings,
      Argument.calculateWithin_of_tooDeep (evaluateWithin_openings 500 499)]
    rfl
  have hargument : Argument.runWithin (some 499) ["--".toList, openings 1000] =
      some (.tooDeep (openings 1000) 499) := by
    rw [Argument.runWithin_calculate,
      Argument.calculateWithin_of_tooDeep (evaluateWithin_openings 499 500)]
    rfl
  rw [Lines.plain_openings]
  refine ⟨clearOfLimits_openings (Nat.le_refl _), _, _, hdocument, hargument, rfl, rfl, ?_⟩
  intro he
  exact absurd (Outcome.column_eq he) (by decide)

end Calculator

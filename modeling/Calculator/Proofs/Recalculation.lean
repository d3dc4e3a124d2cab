import Calculator.Command.Document
import Calculator.Proofs.Precedence

/-!
# Calculating a result again

A result can be given to the calculation again, with a zero in front of it.  A
negative result begins with a minus sign, and behind the zero this is the sign
of a difference.  In front of any other result the zero is one more digit, which
makes no difference.  So the text is that of a tree, with one leaf or with two,
and has its value (`evaluate_zero_write`).

What is printed of a result is its line, and the number in the line is the
result as it is written.  It has no line ends, so a document that holds a zero
and this number is the expression.  It is calculated to the same result, and the
same line is printed.
-/

namespace Calculator

/-! ## Written numbers as expressions -/

/-- A number without a sign, behind a zero. -/
theorem write_leaf (n : Nat) :
    (Tree.leaf n).write ⟨fun _ => 0, fun _ => 1⟩ = '0' :: Numeral.writeNat n := by
  rw [Numeral.writeNat_eq_toDigits]
  simp [Tree.write, Tree.symbols, Layout.write, Symbol.text]

/-- A minus sign behind a zero. -/
theorem write_difference (n : Nat) :
    (Tree.node .sub (.leaf 0) (.leaf n)).write ⟨fun _ => 0, fun _ => 0⟩ =
      '0' :: '-' :: Numeral.writeNat n := by
  rw [Numeral.writeNat_eq_toDigits]
  simp [Tree.write, Tree.symbols, Layout.write, Symbol.text, enclose, Operator.enclosesLeft,
    Operator.enclosesRight, Operator.text]

theorem not_mem_zero_write (value : Int) : '(' ∉ '0' :: Numeral.write value := by
  intro hm
  rcases List.mem_cons.1 hm with hc | hm
  · cases hc
  · exact Numeral.not_mem_write (by decide) rfl value hm

/-- A written integer behind a zero is an expression with its value. -/
theorem evaluate_zero_write (value : Int) : evaluate ('0' :: Numeral.write value) = .ok value := by
  have hopens := opensAtMost_of_not_mem (not_mem_zero_write value) 200
  by_cases hv : value < 0
  · have ht : '0' :: Numeral.write value =
        (Tree.node .sub (.leaf 0) (.leaf value.natAbs)).write ⟨fun _ => 0, fun _ => 0⟩ := by
      rw [write_difference, Numeral.write, if_pos hv]
    rw [ht] at hopens ⊢
    rw [Tree.evaluate_eq_outcome hopens]
    show Except.ok (0 - (value.natAbs : Int)) = Except.ok value
    rw [show 0 - (value.natAbs : Int) = value by omega]
  · have ht : '0' :: Numeral.write value =
        (Tree.leaf value.natAbs).write ⟨fun _ => 0, fun _ => 1⟩ := by
      rw [write_leaf, Numeral.write, if_neg hv]
    rw [ht] at hopens ⊢
    rw [Tree.evaluate_eq_outcome hopens]
    show Except.ok (value.natAbs : Int) = Except.ok value
    rw [Int.natAbs_of_nonneg (Int.not_lt.1 hv)]

/-! ## Printed results as documents -/

/-- Whether an outcome shows a result, on standard output or in the output file. -/
def Outcome.Shows (outcome : Outcome) (number : Text) : Prop :=
  outcome.stdout = "Result = ".toList ++ number ++ ['\n'] ∨
    outcome.written = some ("Result = ".toList ++ number ++ ['\n'])

theorem Outcome.resultLine_inj {value : Int} {number : Text}
    (h : resultLine value = "Result = ".toList ++ number ++ ['\n']) :
    number = Numeral.write value :=
  (List.append_cancel_left (List.append_cancel_right h)).symm

/-- An outcome with nothing to show. -/
theorem Outcome.not_shows {outcome : Outcome} (hout : outcome.stdout = [])
    (hfile : outcome.written = none) (number : Text) : ¬ outcome.Shows number := by
  rintro (h | h)
  · exact List.append_ne_nil_of_right_ne_nil _ (List.cons_ne_nil _ _) (h.symm.trans hout)
  · exact Option.some_ne_none _ (h.symm.trans hfile)

namespace Document

/-- What shows a number is the delivery of the result that is written like this. -/
theorem exists_deliver_of_shows {source : Source} {target : Target} {outcome : Outcome}
    {number : Text} (h : run source target = some outcome) (hs : outcome.Shows number) :
    ∃ value, number = Numeral.write value ∧ outcome = deliver value target := by
  obtain ⟨text, -, rfl⟩ := Option.map_eq_some_iff.1 h
  cases he : evaluate (expression text) with
  | error fault =>
      rw [calculateWithin_of_error he] at hs
      exact absurd hs (Outcome.not_shows rfl rfl number)
  | ok value =>
      rw [calculateWithin_of_ok he] at hs ⊢
      refine ⟨value, ?_, rfl⟩
      cases target with
      | standardOutput | dash =>
          rcases hs with hs | hs
          · exact Outcome.resultLine_inj hs
          · exact absurd hs.symm (Option.some_ne_none _)
      | file =>
          rcases hs with hs | hs
          · exact absurd hs.symm (List.append_ne_nil_of_right_ne_nil _ (List.cons_ne_nil _ _))
          · exact Outcome.resultLine_inj (Option.some.inj hs)

theorem expression_zero_write (value : Int) :
    expression ('0' :: Numeral.write value) = '0' :: Numeral.write value := by
  have hline : ∀ c ∈ '0' :: Numeral.write value, Lines.isEnd c = false := by
    intro c hm
    rcases List.mem_cons.1 hm with rfl | hm
    · rfl
    · rcases Numeral.mem_write hm with rfl | hd
      · rfl
      · exact Lines.isEnd_eq_false_of_isDigit hd
  have hreturn : '\r' ∉ '0' :: Numeral.write value := fun hm => by cases hline _ hm
  rw [expression, Lines.unify_eq_self hreturn, Lines.trim_eq_self hline]

end Document

/-- An integer that is written behind a zero is calculated to itself.  So a result that was shown
is shown again when it is calculated behind a zero, from whatever source it is taken. -/
theorem result_shown_again :
    (∀ value : Int, evaluate ('0' :: Numeral.write value) = .ok value) ∧
    ∀ source target outcome number,
      Document.run source target = some outcome → outcome.Shows number →
      ∀ again : Document.Source, again.text? = some ('0' :: number) →
        Document.run again target = some outcome := by
  refine ⟨evaluate_zero_write, ?_⟩
  intro source target outcome number h hs again hagain
  obtain ⟨value, rfl, rfl⟩ := Document.exists_deliver_of_shows h hs
  have hv : evaluate (Document.expression ('0' :: Numeral.write value)) = .ok value := by
    rw [Document.expression_zero_write, evaluate_zero_write]
  rw [Document.run, Document.runWithin_of_text? hagain, Document.calculateWithin_of_ok hv]

/-- A negative result, from a file and then from standard input. -/
theorem result_shown_again_difference :
    ∃ outcome, Document.run (.file "2-5\n".toList) .standardOutput = some outcome ∧
      outcome.Shows "-3".toList ∧
      Document.run (.dash "0-3".toList) .standardOutput = some outcome := by
  have hnumber : Numeral.write (-3) = "-3".toList := by
    rw [Numeral.write, if_pos (by decide), Numeral.writeNat_eq_toDigits]
    rfl
  have hvalue : evaluate (Document.expression "2-5\n".toList) = .ok (-3) := by
    with_unfolding_all rfl
  have h : Document.run (.file "2-5\n".toList) .standardOutput =
      some (Document.deliver (-3) .standardOutput) := by
    rw [Document.run, Document.runWithin_of_text? rfl, Document.calculateWithin_of_ok hvalue]
  have hshows : (Document.deliver (-3) .standardOutput).Shows "-3".toList := by
    rw [← hnumber]
    exact Or.inl rfl
  exact ⟨_, h, hshows, result_shown_again.2 _ _ _ _ h hshows (.dash "0-3".toList) rfl⟩

end Calculator

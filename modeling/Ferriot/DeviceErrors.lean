import Ferriot.DeviceObjects

/-!
# Error codes of the device

`add_error_code` drops what is listed when a real error follows a leading NoError.
It looks at the first entry only, so a NoError that is added to a list of real
errors stays among them.
-/
namespace Ferriot.DeviceObject

/-- What changes the error codes of a device. -/
inductive ErrorOperation where
  | addErrorCode (code : DeviceErrorCode)
  | clearErrorCodes
  /-- Execute of Reset Error Code. -/
  | resetErrorCode
deriving DecidableEq, Repr

def ErrorOperation.perform (o : DeviceObject) : ErrorOperation → DeviceObject
  | .addErrorCode code => o.addErrorCode code
  | .clearErrorCodes => o.clearErrorCodes
  | .resetErrorCode => (o.executeResource 0 12).2

/-- The codes added so far, forgotten at each clear. -/
def ErrorOperation.record (added : List DeviceErrorCode) : ErrorOperation → List DeviceErrorCode
  | .addErrorCode code => added ++ [code]
  | .clearErrorCodes => []
  | .resetErrorCode => []

/-- The codes added since the last clear, in order. -/
def sinceClear (operations : List ErrorOperation) : List DeviceErrorCode := operations.foldl ErrorOperation.record []

def isNoError (code : DeviceErrorCode) : Bool := code = .NoError

def realErrors (codes : List DeviceErrorCode) : List DeviceErrorCode := codes.filter (fun code => !isNoError code)

/-- The list of a device is consistent with the codes added since the last clear: NoError
    stands alone, the real errors are those added, and each is read at its own place. -/
structure ErrorsConsistent (added : List DeviceErrorCode) (o : DeviceObject) : Prop where
  nonempty : o.errorCodes ≠ []
  alone : .NoError ∈ o.errorCodes → o.errorCodes = [.NoError]
  listed : realErrors o.errorCodes = realErrors added
  readable : ∀ i code, o.errorCodes[i]? = some code → code ≠ .NoError →
    ∃ riid : UInt16, riid.toNat = i ∧ ∀ env, o.readResource env 0 11 (some riid) = .ok (.int code.toInt)

/-- Nothing was added, or any number of NoErrors, then real errors, no more than there are
    resource instance ids, and no NoError again. -/
def ErrorsInOrder (added : List DeviceErrorCode) : Prop :=
  added = [] ∨ ∃ leading errors, added = leading ++ errors ∧ (∀ code ∈ leading, code = .NoError) ∧ errors ≠ [] ∧
    .NoError ∉ errors ∧ errors.length ≤ 65536

/-- The codes listed after a clear and the given additions: the leading NoErrors go
    with the first real error. -/
def kept (added : List DeviceErrorCode) : List DeviceErrorCode :=
  if added.dropWhile isNoError = [] then .NoError :: added else added.dropWhile isNoError

theorem isNoError_iff (code : DeviceErrorCode) : isNoError code = true ↔ code = .NoError := by simp [isNoError]

theorem head_kept (added : List DeviceErrorCode) :
    (kept added).head? = some .NoError ↔ added.dropWhile isNoError = [] := by
  unfold kept
  split_ifs with none
  · exact iff_of_true rfl none
  · refine iff_of_false ?_ none
    intro first
    have real := List.head_dropWhile_not isNoError none
    rw [List.head_eq_iff_head?_eq_some none |>.mpr first] at real
    cases real

theorem kept_add (added : List DeviceErrorCode) (code : DeviceErrorCode) :
    kept (added ++ [code]) = if code ≠ .NoError ∧ added.dropWhile isNoError = [] then [code] else kept added ++ [code] := by
  unfold kept
  rw [List.dropWhile_append]
  by_cases none : added.dropWhile isNoError = []
  · by_cases real : code = .NoError
    · simp [none,real,isNoError]
    · simp [none,real,isNoError]
  · simp [none]

/-- One operation keeps the list to the codes added. -/
theorem errorCodes_perform {o : DeviceObject} {added : List DeviceErrorCode} (listed : o.errorCodes = kept added)
    (operation : ErrorOperation) : (operation.perform o).errorCodes = kept (operation.record added) := by
  cases operation with
  | addErrorCode code =>
    show (o.addErrorCode code).errorCodes = kept (added ++ [code])
    rw [kept_add]
    simp only [addErrorCode, listed, head_kept]
    split_ifs
    · rfl
    · rfl
  | clearErrorCodes => rfl
  | resetErrorCode => rfl

/-- A run keeps it so. -/
theorem errorCodes_run {o : DeviceObject} {added : List DeviceErrorCode} (listed : o.errorCodes = kept added)
    (operations : List ErrorOperation) :
    (operations.foldl ErrorOperation.perform o).errorCodes = kept (operations.foldl ErrorOperation.record added) := by
  induction operations generalizing o added with
  | nil => exact listed
  | cons operation operations ih => exact ih (errorCodes_perform listed operation)

/-- Every real error stays listed, in order. -/
theorem realErrors_kept (added : List DeviceErrorCode) : realErrors (kept added) = realErrors added := by
  have dropped : realErrors (added.dropWhile isNoError) = realErrors added := by
    unfold realErrors
    induction added with
    | nil => rfl
    | cons code added ih =>
      by_cases real : isNoError code = true
      · simpa [real] using ih
      · simp [real]
  unfold kept
  split_ifs with none
  · rfl
  · exact dropped

theorem readable_iff (o : DeviceObject) (i : Nat) {code : DeviceErrorCode} (at_i : o.errorCodes[i]? = some code) :
    (∃ riid : UInt16, riid.toNat = i ∧ ∀ env, o.readResource env 0 11 (some riid) = .ok (.int code.toInt)) ↔
      i < 65536 := by
  constructor
  · rintro ⟨riid,rfl,-⟩
    exact riid.toNat_lt
  · intro small
    have word : (UInt16.ofNat i).toNat = i := UInt16.toNat_ofNat_of_lt' small
    refine ⟨UInt16.ofNat i,word,?_⟩
    intro env
    simp [readResource,readErrorCode,word,at_i]

/-- A list of real errors is readable up to the number of resource instance ids. -/
theorem readable_reals {o : DeviceObject} (reals : .NoError ∉ o.errorCodes) :
    (∀ i code, o.errorCodes[i]? = some code → code ≠ .NoError →
      ∃ riid : UInt16, riid.toNat = i ∧ ∀ env, o.readResource env 0 11 (some riid) = .ok (.int code.toInt)) ↔
        o.errorCodes.length ≤ 65536 := by
  constructor
  · intro readable
    by_contra long
    have inside : 65536 < o.errorCodes.length := Nat.lt_of_not_le long
    have last := List.getElem?_eq_getElem inside
    have real : o.errorCodes[65536] ≠ .NoError := fun same => reals (same ▸ List.getElem_mem inside)
    exact absurd ((readable_iff o _ last).mp (readable _ _ last real)) (Nat.lt_irrefl _)
  · intro short i code at_i _
    have inside : i < o.errorCodes.length := (List.getElem?_eq_some_iff.mp at_i).1
    exact (readable_iff o i at_i).mpr (Nat.lt_of_lt_of_le inside short)

theorem consistent_unstarted {o : DeviceObject} {added : List DeviceErrorCode} (listed : o.errorCodes = kept added)
    (none : added.dropWhile isNoError = []) : ErrorsConsistent added o ↔ added = [] := by
  rw [kept, if_pos none] at listed
  constructor
  · intro consistent
    have alone := consistent.alone (listed ▸ List.mem_cons_self)
    rw [listed] at alone
    exact (List.cons.inj alone).2
  · rintro rfl
    refine ⟨by simp [listed],fun _ => listed,by rw [listed]; rfl,?_⟩
    intro i code at_i real
    have member := List.mem_of_getElem? at_i
    rw [listed, List.mem_singleton] at member
    exact absurd member real

theorem consistent_started {o : DeviceObject} {added : List DeviceErrorCode} (listed : o.errorCodes = kept added)
    (some : added.dropWhile isNoError ≠ []) :
    ErrorsConsistent added o ↔ .NoError ∉ added.dropWhile isNoError ∧ (added.dropWhile isNoError).length ≤ 65536 := by
  have whole := realErrors_kept added
  have first := (head_kept added).not.mpr some
  rw [← listed] at whole first
  rw [kept, if_neg some] at listed
  rw [← listed] at some ⊢
  constructor
  · intro consistent
    have reals : .NoError ∉ o.errorCodes := by
      intro member
      rw [consistent.alone member] at first
      exact first rfl
    exact ⟨reals,(readable_reals reals).mp consistent.readable⟩
  · rintro ⟨reals,short⟩
    exact ⟨some,fun member => absurd member reals,whole,(readable_reals reals).mpr short⟩

/-- The order of the codes added, told by what is left of them from the first real error on. -/
theorem errorsInOrder_iff (added : List DeviceErrorCode) :
    ErrorsInOrder added ↔
      if added.dropWhile isNoError = [] then added = []
      else .NoError ∉ added.dropWhile isNoError ∧ (added.dropWhile isNoError).length ≤ 65536 := by
  constructor
  · rintro (rfl | ⟨leading,errors,rfl,noErrors,some,reals,short⟩)
    · rfl
    · have left : (leading ++ errors).dropWhile isNoError = errors := by
        rw [List.dropWhile_append_of_pos (fun code member => (isNoError_iff code).mpr (noErrors code member))]
        obtain ⟨code,errors,rfl⟩ := List.exists_cons_of_ne_nil some
        have real : code ≠ .NoError := fun same => reals (same ▸ List.mem_cons_self)
        simp [isNoError,real]
      rw [left, if_neg some]
      exact ⟨reals,short⟩
  · split_ifs with none
    · exact .inl
    · rintro ⟨reals,short⟩
      refine .inr ⟨added.takeWhile isNoError,added.dropWhile isNoError,List.takeWhile_append_dropWhile.symm,?_,none,reals,short⟩
      intro code member
      exact (isNoError_iff code).mp (List.all_eq_true.mp List.all_takeWhile code member)

/-- After a run, the error codes of a device are consistent exactly if no NoError was
    added since the last clear but ahead of real errors, no more than there are ids for. -/
theorem errorsConsistent_iff (config : DeviceConfig) (operations : List ErrorOperation) :
    ErrorsConsistent (sinceClear operations) (operations.foldl ErrorOperation.perform { config := config }) ↔
      ErrorsInOrder (sinceClear operations) := by
  have initial : ({ config := config } : DeviceObject).errorCodes = kept [] := rfl
  have listed := errorCodes_run initial operations
  rw [errorsInOrder_iff]
  split_ifs with none
  · exact consistent_unstarted listed none
  · exact consistent_started listed none

/-- A NoError that is added to a low battery is listed beside it. -/
theorem noError_kept :
    ¬ ∀ (config : DeviceConfig) (operations : List ErrorOperation),
      ErrorsConsistent (sinceClear operations) (operations.foldl ErrorOperation.perform { config := config }) := by
  intro always
  have consistent := always {} [.addErrorCode .LowBatteryPower,.addErrorCode .NoError]
  have alone := consistent.alone (by decide)
  revert alone
  decide

end Ferriot.DeviceObject

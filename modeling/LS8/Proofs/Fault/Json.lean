import LS8.Fault.Json
import LS8.Proofs.Json.Shape

/-!
# Faults are read back

The name of a fault's variant decides which fields its reader asks for, so what is to be shown is
that each variant's record has exactly these. Numbers are the one thing that can be lost: a reader
refuses a number that is too wide for its field. `Fault.Fits` says that none is. This holds of every
fault of a machine with 64-bit addresses, and it is no more than reading asks for: whatever is read
fits (`Fault.exists_json_iff`).
-/

namespace LS8

@[simp] theorem AddressSpace.written_toJson (space : AddressSpace) : Json.Written space.toJson :=
  Json.written_ofText space.tag

theorem AddressSpace.ofJson?_toJson (space : AddressSpace) : ofJson? space.toJson = some space := by
  refine Json.unit?_ofText ?_
  cases space with
  | memory => decide
  | registers => decide

@[simp] theorem Register.written_toJson (r : Register) : Json.Written r.toJson :=
  Json.written_ofText r.name

theorem Register.ofJson?_toJson (r : Register) : ofJson? r.toJson = some r := by
  refine Json.unit?_ofText ?_
  have hall : ∀ r : Register, all.find? (·.name == r.name) = some r := by decide +kernel
  exact hall r

namespace Fault

/-- The numbers of a fault are no wider than their fields. -/
def Fits : Fault → Prop
  | addressOutOfRange _ address => address < addressBound
  | invalidOperand value => value < operandBound
  | illegalInstruction _ pc => pc < addressBound
  | programTooLarge length capacity => length < addressBound ∧ capacity < addressBound
  | outputFailed pc => pc < addressBound
  | unsupportedOperation _ | divisionByZero .. | snapshotLayout _ => True

/-- Whatever a fault carries is written as this library writes values. -/
theorem written_details (fault : Fault) : Json.Written fault.details := by
  cases fault
  -- whatever the variant, its fields are numbers, texts and names
  all_goals exact Json.written_record (by simp)

theorem written_toJson (fault : Fault) : Json.Written fault.toJson :=
  Json.written_tagged fault.tag fault.written_details

/-- **The details of a fault are taken back** under its name. -/
theorem ofDetails?_details {fault : Fault} (h : fault.Fits) :
    ofDetails? fault.tag fault.details = some fault := by
  -- one case for each fault: its fields are found by their names and read back one by one
  cases fault with
  | addressOutOfRange space address =>
    have hfields := Json.fields?_record_pair "space" "address" (by decide)
      space.toJson (.ofNat address)
    rw [tag, details, ofDetails?, hfields]
    simp only [AddressSpace.ofJson?_toJson, Json.natBelow?_ofNat h]
    rfl
  | invalidOperand value =>
    rw [tag, details, ofDetails?, Json.fields?_record_single]
    simp only [Json.natBelow?_ofNat h]
    rfl
  | unsupportedOperation operation =>
    rw [tag, details, ofDetails?, Json.fields?_record_single]
    simp only [Json.text?_ofText]
    rfl
  | divisionByZero dest src =>
    have hfields := Json.fields?_record_pair "dest" "src" (by decide)
      dest.toJson src.toJson
    rw [tag, details, ofDetails?, hfields]
    simp only [Register.ofJson?_toJson]
    rfl
  | illegalInstruction opcode pc =>
    have hfields := Json.fields?_record_pair "opcode" "pc" (by decide)
      (.ofByte opcode) (.ofNat pc)
    rw [tag, details, ofDetails?, hfields]
    simp only [Json.byte?_ofByte, Json.natBelow?_ofNat h]
    rfl
  | programTooLarge length capacity =>
    obtain ⟨hlength, hcapacity⟩ := h
    have hfields := Json.fields?_record_pair "len" "capacity" (by decide)
      (.ofNat length) (.ofNat capacity)
    rw [tag, details, ofDetails?, hfields]
    simp only [Json.natBelow?_ofNat hlength, Json.natBelow?_ofNat hcapacity]
    rfl
  | outputFailed pc =>
    rw [tag, details, ofDetails?, Json.fields?_record_single]
    simp only [Json.natBelow?_ofNat h]
    rfl
  | snapshotLayout reason =>
    rw [tag, details, ofDetails?, Json.fields?_record_single]
    simp only [Json.text?_ofText]
    rfl

/-- **A fault is taken back from its JSON form**, if its numbers fit. -/
theorem ofJson?_toJson {fault : Fault} (h : fault.Fits) : ofJson? fault.toJson = some fault := by
  unfold ofJson? toJson
  rw [Json.variant?_tagged]
  exact ofDetails?_details h

/-! ### What can be read fits -/

/-- Conversely, a fault that was read fits: wider numbers are refused. -/
theorem fits_of_ofDetails? {tag : String} {details : Json} {fault : Fault}
    (h : ofDetails? tag details = some fault) : fault.Fits := by
  unfold ofDetails? at h
  -- one case for each name, and in it the record has the fields of that name or is refused
  split at h
  all_goals try split at h
  all_goals simp only [Option.bind_eq_bind, Option.bind_eq_some_iff, Option.pure_def,
    Option.some.injEq, reduceCtorEq] at h
  · obtain ⟨space, -, address, haddress, rfl⟩ := h
    exact Json.lt_of_natBelow? haddress
  · obtain ⟨value, hvalue, rfl⟩ := h
    exact Json.lt_of_natBelow? hvalue
  · obtain ⟨operation, -, rfl⟩ := h
    trivial
  · obtain ⟨dest, -, src, -, rfl⟩ := h
    trivial
  · obtain ⟨opcode, -, pc, hpc, rfl⟩ := h
    exact Json.lt_of_natBelow? hpc
  · obtain ⟨length, hlength, capacity, hcapacity, rfl⟩ := h
    exact ⟨Json.lt_of_natBelow? hlength, Json.lt_of_natBelow? hcapacity⟩
  · obtain ⟨pc, hpc, rfl⟩ := h
    exact Json.lt_of_natBelow? hpc
  · obtain ⟨reason, -, rfl⟩ := h
    trivial

/-- **The faults that fit are those that can be read.** -/
theorem exists_json_iff {fault : Fault} : (∃ value, ofJson? value = some fault) ↔ fault.Fits := by
  constructor
  · rintro ⟨value, hvalue⟩
    obtain ⟨⟨tag, content⟩, -, hcontent⟩ := Option.bind_eq_some_iff.mp hvalue
    obtain ⟨details, -, hdetails⟩ := Option.bind_eq_some_iff.mp hcontent
    exact fits_of_ofDetails? hdetails
  · intro hfits
    exact ⟨fault.toJson, ofJson?_toJson hfits⟩

end Fault

end LS8

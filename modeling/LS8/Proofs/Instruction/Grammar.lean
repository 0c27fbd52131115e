import LS8.Proofs.Instruction.Refusal
import LS8.Proofs.Machine.Step

/-!
# The grammar of instructions

`Memory.StartsInstruction` is the grammar, byte by byte: which bytes from an address on are an
instruction. `decode_grammar` says that decoding accepts these and no others, that what it accepts
encodes to the bytes that stand there, and that what it refuses is reported by the first check that
fails. There is no bound on the address; below `0xFFFFFFFFFFFFFFFE` the addresses of the operands are
numbers of 64 bits, too.

The checks are written down as a list (`Memory.decodeChecks`), in the order of the bytes. There has to
be a first byte, and it has to be an opcode. An operand has to lie inside the memory, and where it
should name a register it has to name one; both are asked of the first operand before anything is
asked of the second. The order shows where several checks fail at once. A load instruction on the last
two cells lacks its second operand, and still it is the first one that is reported if it names no
register.

Decoding is a chain of reads, each of which carries out some of the checks. `Follows` says of one link
that it fails exactly where its checks do, and is kept when two links are put behind each other
(`Follows.bind`). So the order of the checks is followed from link to link, and only what a single
link does is looked at (`follows_read`, `follows_registerOperand`).
-/

namespace LS8

/-- What is asked of the bytes at an address before they are an instruction. The byte at offset zero
is the opcode, and the operands follow it. -/
inductive DecodeCheck where
  /-- The byte lies inside the memory. -/
  | present (offset : Nat)
  /-- The first byte is an opcode. -/
  | assigned
  /-- The byte names a register. -/
  | named (offset : Nat)
  deriving DecidableEq

namespace Memory

/-- The byte at an address is there and names a register. -/
def NamesRegister (memory : Memory) (address : Nat) : Prop :=
  ∃ byte, memory.get? address = some byte ∧ byte.toNat < 8

/-- **The grammar.** The bytes from an address on start with an instruction. -/
inductive StartsInstruction (memory : Memory) (pc : Nat) : Prop
  | hlt (opcode : memory.get? pc = some 0x01)
  | ldi (opcode : memory.get? pc = some 0x82) (register : memory.NamesRegister (pc + 1))
      (immediate : pc + 2 < 256)
  | prn (opcode : memory.get? pc = some 0x47) (register : memory.NamesRegister (pc + 1))
  | mul (opcode : memory.get? pc = some 0xA2) (first : memory.NamesRegister (pc + 1))
      (second : memory.NamesRegister (pc + 2))

/-- What is asked of the operands behind a byte. -/
def operandChecks (opcode : UInt8) : List DecodeCheck :=
  if opcode = 0x82 then [.present 1, .named 1, .present 2]
  else if opcode = 0x47 then [.present 1, .named 1]
  else if opcode = 0xA2 then [.present 1, .named 1, .present 2, .named 2]
  else []

/-- All that is asked of the bytes from an address on, in order. -/
def decodeChecks (memory : Memory) (pc : Nat) : List DecodeCheck :=
  [.present 0] ++ ([.assigned] ++ ((memory.get? pc).map operandChecks).getD [])

end Memory

namespace DecodeCheck

/-- The bytes pass a check. -/
def Passes (memory : Memory) (pc : Nat) : DecodeCheck → Prop
  | present offset => pc + offset < 256
  | assigned => ∃ byte ∈ [0x01, 0x82, 0x47, 0xA2], memory.get? pc = some byte
  | named offset => memory.NamesRegister (pc + offset)

/-- The bytes fail a check, which is reported by a fault. -/
inductive Fails (memory : Memory) (pc : Nat) : DecodeCheck → Fault → Prop
  | present (offset : Nat) (beyond : 256 ≤ pc + offset) :
      Fails memory pc (.present offset) (.addressOutOfRange .memory (pc + offset))
  | assigned (byte : UInt8) (fetched : memory.get? pc = some byte)
      (unassigned : byte ∉ [0x01, 0x82, 0x47, 0xA2]) :
      Fails memory pc .assigned (.illegalInstruction byte pc)
  | named (offset : Nat) (byte : UInt8) (fetched : memory.get? (pc + offset) = some byte)
      (misnamed : 8 ≤ byte.toNat) :
      Fails memory pc (.named offset) (.addressOutOfRange .registers byte.toNat)

end DecodeCheck

/-- **The fault of the first check that fails**, out of a list of checks. -/
inductive FirstFailing (memory : Memory) (pc : Nat) : List DecodeCheck → Fault → Prop
  | here {check : DecodeCheck} {fault : Fault} (later : List DecodeCheck)
      (fails : check.Fails memory pc fault) : FirstFailing memory pc (check :: later) fault
  | behind {check : DecodeCheck} {fault : Fault} {later : List DecodeCheck}
      (passes : check.Passes memory pc) (first : FirstFailing memory pc later fault) :
      FirstFailing memory pc (check :: later) fault

variable {memory : Memory} {pc : Nat} {fault fault' : Fault} {check : DecodeCheck}
variable {checks checks' : List DecodeCheck} {α β : Type}

/-! ### Checks -/

/-- A check that fails with a fault does not pass. -/
theorem DecodeCheck.Fails.not_passes (h : check.Fails memory pc fault) :
    ¬ check.Passes memory pc := by
  -- a check looks at one byte, so its two outcomes speak of the same one
  cases h with
  | present offset hbeyond => exact Nat.not_lt_of_le hbeyond
  | assigned byte hfetched hunassigned =>
    rintro ⟨byte', hmem, hfetched'⟩
    rw [hfetched] at hfetched'
    obtain rfl := Option.some.inj hfetched'
    exact hunassigned hmem
  | named offset byte hfetched hmisnamed =>
    rintro ⟨byte', hfetched', hnamed⟩
    rw [hfetched] at hfetched'
    obtain rfl := Option.some.inj hfetched'
    exact Nat.not_lt_of_le hmisnamed hnamed

/-- The bytes leave no choice of the fault. -/
theorem DecodeCheck.Fails.fault_eq (h : check.Fails memory pc fault)
    (h' : check.Fails memory pc fault') : fault = fault' := by
  cases h with
  | present offset _ =>
    cases h'
    rfl
  | assigned byte hfetched _ =>
    cases h' with
    | assigned byte' hfetched' _ => rw [Option.some.inj (hfetched.symm.trans hfetched')]
  | named offset byte hfetched _ =>
    cases h' with
    | named _ byte' hfetched' _ => rw [Option.some.inj (hfetched.symm.trans hfetched')]

namespace FirstFailing

/-- With a first failing check, not all checks pass. -/
theorem not_all_pass (h : FirstFailing memory pc checks fault) :
    ¬ ∀ check ∈ checks, check.Passes memory pc := by
  intro hpass
  induction h with
  | here later hfails => exact hfails.not_passes (hpass _ List.mem_cons_self)
  | behind _ _ ih => exact ih fun check hcheck => hpass check (List.mem_cons_of_mem _ hcheck)

/-- There is at most one first failing check, so the fault is determined. -/
theorem fault_eq (h : FirstFailing memory pc checks fault)
    (h' : FirstFailing memory pc checks fault') : fault = fault' := by
  induction h with
  | here later hfails =>
    cases h' with
    | here _ hfails' => exact hfails.fault_eq hfails'
    | behind hpasses _ => exact absurd hpasses hfails.not_passes
  | behind hpasses _ ih =>
    cases h' with
    | here _ hfails' => exact absurd hpasses hfails'.not_passes
    | behind _ hfirst' => exact ih hfirst'

/-- Checks behind the first failing one do not matter. -/
theorem append_left (h : FirstFailing memory pc checks fault) (checks' : List DecodeCheck) :
    FirstFailing memory pc (checks ++ checks') fault := by
  induction h with
  | here later hfails => exact .here _ hfails
  | behind hpasses _ ih => exact .behind hpasses ih

/-- Checks in front of it have passed. -/
theorem append_right (hpass : ∀ check ∈ checks, check.Passes memory pc)
    (h : FirstFailing memory pc checks' fault) :
    FirstFailing memory pc (checks ++ checks') fault := by
  induction checks with
  | nil => exact h
  | cons check checks ih =>
    obtain ⟨hcheck, hchecks⟩ := List.forall_mem_cons.mp hpass
    exact .behind hcheck (ih hchecks)

end FirstFailing

/-! ### Links of the chain -/

/-- A computation succeeds only if all of the given checks pass, and fails with the fault of the
first one that does not. -/
structure Follows (memory : Memory) (pc : Nat) (checks : List DecodeCheck) (x : Except Fault α) :
    Prop where
  passes_of_ok : ∀ a, x = .ok a → ∀ check ∈ checks, check.Passes memory pc
  first_of_error : ∀ fault, x = .error fault → FirstFailing memory pc checks fault

namespace Follows

variable {x : Except Fault α}

/-- As the checks leave no choice, they decide how the computation ends. -/
theorem ok_iff (h : Follows memory pc checks x) :
    (∃ a, x = .ok a) ↔ ∀ check ∈ checks, check.Passes memory pc := by
  constructor
  · rintro ⟨a, ha⟩
    exact h.passes_of_ok a ha
  · intro hpass
    cases hx : x with
    | ok a => exact ⟨a, rfl⟩
    | error fault => exact absurd hpass (h.first_of_error fault hx).not_all_pass

/-- **The answer is an error exactly if a check fails**, and then it is that of the first one. -/
theorem error_iff (h : Follows memory pc checks x) :
    x = .error fault ↔ FirstFailing memory pc checks fault := by
  refine ⟨h.first_of_error fault, fun hfirst => ?_⟩
  cases hx : x with
  | ok a => exact absurd (h.passes_of_ok a hx) hfirst.not_all_pass
  | error fault' => rw [(h.first_of_error fault' hx).fault_eq hfirst]

/-- What is computed without a check cannot fail. -/
theorem ok (a : α) : Follows memory pc [] (.ok a : Except Fault α) where
  passes_of_ok := fun _ _ _ hmem => absurd hmem List.not_mem_nil
  first_of_error := by
    intro fault h
    cases h

/-- A check that is known to pass may stand in front. -/
theorem of_passes (hpasses : check.Passes memory pc) (h : Follows memory pc checks x) :
    Follows memory pc ([check] ++ checks) x where
  passes_of_ok := fun a ha => List.forall_mem_cons.mpr ⟨hpasses, h.passes_of_ok a ha⟩
  first_of_error := fun fault hfault => .behind hpasses (h.first_of_error fault hfault)

/-- **One link behind another.** The checks of the second one count only where those of the first
one have passed. -/
theorem bind {f : α → Except Fault β} (h : Follows memory pc checks x)
    (hf : ∀ a, x = .ok a → Follows memory pc checks' (f a)) :
    Follows memory pc (checks ++ checks') (x >>= f) where
  passes_of_ok := by
    intro b hb
    obtain ⟨a, ha, hb⟩ := bind_eq_ok_iff.mp hb
    exact List.forall_mem_append.mpr ⟨h.passes_of_ok a ha, (hf a ha).passes_of_ok b hb⟩
  first_of_error := by
    intro fault hfault
    -- either the first part fails, or it passes all its checks and the second part fails
    rcases bind_eq_error_iff.mp hfault with hx | ⟨a, ha, hfault⟩
    · exact (h.first_of_error fault hx).append_left checks'
    · exact .append_right (h.passes_of_ok a ha) ((hf a ha).first_of_error fault hfault)

end Follows

/-- Reading a cell is one check. -/
theorem follows_read (offset : Nat) :
    Follows memory pc [.present offset] (memory.read (pc + offset)) where
  passes_of_ok := fun _ h => List.forall_mem_singleton.mpr (Memory.lt_of_read h)
  first_of_error := by
    intro fault h
    obtain ⟨hbeyond, rfl⟩ := beyond_of_read h
    exact .here [] (.present offset hbeyond)

/-- A register operand is read, and then it is looked at. -/
theorem follows_registerOperand (offset : Nat) :
    Follows memory pc [.present offset, .named offset] (registerOperand memory (pc + offset)) where
  passes_of_ok := by
    intro r h
    have hget := get?_of_registerOperand h
    have hnamed : (UInt8.ofNat r.val).toNat < 8 := by
      have hlt := r.isLt
      rw [UInt8.toNat_ofNat']
      omega
    exact List.forall_mem_cons.mpr
      ⟨lt_of_registerOperand h, List.forall_mem_singleton.mpr ⟨_, hget, hnamed⟩⟩
  first_of_error := by
    intro fault h
    -- the operand is missing, or it is there and names no register
    rcases registerOperand_cases_of_error h with ⟨hbeyond, rfl⟩ | ⟨byte, hbyte, rfl⟩
    · exact .here _ (.present offset hbeyond)
    · obtain ⟨hget, hmisnamed⟩ := Memory.misnamedAt?_eq_some_iff.mp hbyte
      exact .behind (Memory.lt_of_get? hget) (.here [] (.named offset byte hget hmisnamed))

/-! ### Decoding -/

/-- The bytes of the four opcodes. -/
theorem mem_opcodes_iff {byte : UInt8} :
    byte ∈ [0x01, 0x82, 0x47, 0xA2] ↔ ∃ opcode, Opcode.ofByte? byte = some opcode := by
  constructor
  · intro hmem
    obtain ⟨opcode, -, rfl⟩ : ∃ opcode ∈ Opcode.all, opcode.byte = byte := List.mem_map.mp hmem
    exact ⟨opcode, Opcode.ofByte?_byte opcode⟩
  · rintro ⟨opcode, h⟩
    obtain rfl := Opcode.ofByte?_eq_some_iff.mp h
    cases opcode <;> decide

/-- **Decoding follows the checks** in their order. -/
theorem follows_decode : Follows memory pc (memory.decodeChecks pc) (decode memory pc) := by
  refine (follows_read 0).bind fun byte hread => ?_
  have hfetched : memory.get? pc = some byte := Memory.read_eq_ok_iff.mp hread
  rw [hfetched, Option.map_some, Option.getD_some]
  -- the byte that was fetched says which operands there are
  cases hop : Opcode.ofByte? byte with
  | none =>
    have hunassigned : byte ∉ [0x01, 0x82, 0x47, 0xA2] := by
      intro hmem
      obtain ⟨opcode, h⟩ := mem_opcodes_iff.mp hmem
      rw [hop] at h
      cases h
    refine ⟨?_, ?_⟩
    · intro i h
      cases h
    · intro fault h
      obtain rfl := Except.error.inj h
      exact .here _ (.assigned byte hfetched hunassigned)
  | some opcode =>
    refine .of_passes ⟨byte, mem_opcodes_iff.mpr ⟨opcode, hop⟩, hfetched⟩ ?_
    obtain rfl := Opcode.ofByte?_eq_some_iff.mp hop
    cases opcode with
    | hlt => exact .ok _
    | ldi =>
      exact (follows_registerOperand 1).bind fun dest _ =>
        (follows_read 2).bind fun value _ => .ok (Instruction.ldi dest value)
    | prn => exact (follows_registerOperand 1).bind fun src _ => .ok (Instruction.prn src)
    | mul =>
      exact (follows_registerOperand 1).bind fun dest _ =>
        (follows_registerOperand 2).bind fun src _ => .ok (Instruction.alu .mul dest src)

/-! ### The grammar -/

theorem Memory.NamesRegister.lt {address : Nat} (h : memory.NamesRegister address) :
    address < 256 := by
  obtain ⟨byte, hbyte, -⟩ := h
  exact lt_of_get? hbyte

/-- All checks pass if the byte is an opcode and its operands pass theirs. -/
theorem all_pass_iff {byte : UInt8} (hfetched : memory.get? pc = some byte) :
    (∀ check ∈ memory.decodeChecks pc, check.Passes memory pc) ↔
      byte ∈ [0x01, 0x82, 0x47, 0xA2] ∧
        ∀ check ∈ Memory.operandChecks byte, check.Passes memory pc := by
  have hassigned : DecodeCheck.assigned.Passes memory pc ↔ byte ∈ [0x01, 0x82, 0x47, 0xA2] := by
    constructor
    · rintro ⟨byte', hmem, hfetched'⟩
      obtain rfl := Option.some.inj (hfetched.symm.trans hfetched')
      exact hmem
    · intro hmem
      exact ⟨byte, hmem, hfetched⟩
  have hchecks : memory.decodeChecks pc = .present 0 :: .assigned :: Memory.operandChecks byte := by
    unfold Memory.decodeChecks
    rw [hfetched]
    rfl
  -- the first check is that the byte can be fetched, which it was
  rw [hchecks, List.forall_mem_cons, List.forall_mem_cons, hassigned]
  exact and_iff_right (Memory.lt_of_get? hfetched)

/-- The bytes that pass all checks are those of the grammar. -/
theorem startsInstruction_iff :
    memory.StartsInstruction pc ↔ ∀ check ∈ memory.decodeChecks pc, check.Passes memory pc := by
  constructor
  · intro h
    cases h with
    | hlt hop => exact (all_pass_iff hop).mpr ⟨by decide, fun _ h => absurd h List.not_mem_nil⟩
    | ldi hop hregister himmediate =>
      refine (all_pass_iff hop).mpr ⟨by decide, List.forall_mem_cons.mpr ⟨hregister.lt, ?_⟩⟩
      exact List.forall_mem_cons.mpr ⟨hregister, List.forall_mem_singleton.mpr himmediate⟩
    | prn hop hregister =>
      refine (all_pass_iff hop).mpr ⟨by decide, List.forall_mem_cons.mpr ⟨hregister.lt, ?_⟩⟩
      exact List.forall_mem_singleton.mpr hregister
    | mul hop hfirst hsecond =>
      refine (all_pass_iff hop).mpr ⟨by decide, List.forall_mem_cons.mpr ⟨hfirst.lt, ?_⟩⟩
      refine List.forall_mem_cons.mpr ⟨hfirst, List.forall_mem_cons.mpr ⟨hsecond.lt, ?_⟩⟩
      exact List.forall_mem_singleton.mpr hsecond
  · intro hpass
    have hlt : pc < 256 := hpass (.present 0) List.mem_cons_self
    obtain ⟨byte, hfetched⟩ : ∃ byte, memory.get? pc = some byte := ⟨_, Memory.get?_of_lt hlt⟩
    obtain ⟨hmem, hoperands⟩ := (all_pass_iff hfetched).mp hpass
    -- the checks behind the fetch are those of the byte that was fetched
    simp only [List.mem_cons, List.not_mem_nil, or_false] at hmem
    rcases hmem with rfl | rfl | rfl | rfl
    · exact .hlt hfetched
    · exact .ldi hfetched (hoperands (.named 1) (by decide)) (hoperands (.present 2) (by decide))
    · exact .prn hfetched (hoperands (.named 1) (by decide))
    · exact .mul hfetched (hoperands (.named 1) (by decide)) (hoperands (.named 2) (by decide))

/-- Two bits are above the lower six. -/
theorem toNat_operandCountField (byte : UInt8) :
    (operandCountField byte).toNat = byte.toNat / 64 := by
  unfold operandCountField
  rw [UInt8.toNat_shiftRight, Nat.shiftRight_eq_div_pow]
  rfl

/-- The cells of a decoded instruction are its encoding. -/
theorem take_toList_of_decode {i : Instruction} (h : decode memory pc = .ok i) :
    (memory.toList.drop pc).take i.length = i.encode := by
  rw [Memory.drop_toList_of_holds (holds_encode_of_decode h), ← i.length_encode, List.take_left]

/-- The two upper bits of an opcode are the number of its operands. -/
theorem length_of_decode {i : Instruction} (h : decode memory pc = .ok i) {byte : UInt8}
    (hbyte : memory.get? pc = some byte) : i.length = 1 + byte.toNat / 64 := by
  have hopcode : memory.get? pc = some i.opcode.byte := (holds_encode_of_decode h).1
  obtain rfl := Option.some.inj (hopcode.symm.trans hbyte)
  rw [← toNat_operandCountField]
  rfl

/-- What decoding does at an address: what it accepts, what it makes of it, and what it reports
otherwise. -/
structure DecodesGrammar (memory : Memory) (pc : Nat) : Prop where
  accepts_iff : (∃ i, decode memory pc = .ok i) ↔ memory.StartsInstruction pc
  /-- The instruction is the one that stands there. -/
  encode_eq : ∀ i, decode memory pc = .ok i → (memory.toList.drop pc).take i.length = i.encode
  operation_eq : ∀ op dest src, decode memory pc = .ok (.alu op dest src) → op = .mul
  /-- Its length is read off the opcode: one byte, and as many operands as the top bits count. -/
  length_eq : ∀ i, decode memory pc = .ok i →
    ∀ byte, memory.get? pc = some byte → i.length = 1 + byte.toNat / 64
  refuses_iff : ∀ fault, decode memory pc = .error fault ↔
    FirstFailing memory pc (memory.decodeChecks pc) fault

/-- **Decoding accepts the grammar and reports the first violation.** The last part is a load
instruction that is cut off behind its register: the register comes first. -/
theorem decode_grammar (memory : Memory) :
    (∀ pc, DecodesGrammar memory pc) ∧
    ∀ register, memory.get? 254 = some 0x82 → memory.get? 255 = some register →
      (8 ≤ register.toNat →
        decode memory 254 = .error (.addressOutOfRange .registers register.toNat)) ∧
      (register.toNat < 8 → decode memory 254 = .error (.addressOutOfRange .memory 256)) := by
  refine ⟨fun pc => ?_, fun register hopcode hregister => ?_⟩
  · exact {
      accepts_iff := follows_decode.ok_iff.trans startsInstruction_iff.symm
      encode_eq := fun _ => take_toList_of_decode
      operation_eq := fun _ _ _ => op_of_decode
      length_eq := fun _ h _ => length_of_decode h
      refuses_iff := fun _ => follows_decode.error_iff }
  have hchecks : memory.decodeChecks 254 =
      [.present 0, .assigned, .present 1, .named 1, .present 2] := by
    unfold Memory.decodeChecks
    rw [hopcode]
    rfl
  -- the first three checks pass whatever the register is
  have hreached : ∀ {fault}, FirstFailing memory 254 [.named 1, .present 2] fault →
      decode memory 254 = .error fault := by
    intro fault h
    refine follows_decode.error_iff.mpr ?_
    rw [hchecks]
    refine .behind (by decide : 254 + 0 < 256) (.behind ⟨0x82, by decide, hopcode⟩ ?_)
    exact .behind (by decide : 254 + 1 < 256) h
  constructor
  · intro hmisnamed
    exact hreached (.here _ (.named 1 register hregister hmisnamed))
  · intro hnamed
    exact hreached (.behind ⟨register, hregister, hnamed⟩ (.here _ (.present 2 (by decide))))

/-- A memory of zeros that ends in a load instruction for the named register, without its value. -/
def cutLoad (register : UInt8) : Memory :=
  ⟨(List.replicate 254 0 ++ [0x82, register]).toArray, by
    rw [List.size_toArray, List.length_append, List.length_replicate]
    rfl⟩

/-- An instruction that is cut off by the end of the memory: a register that does not exist is found
out first. -/
theorem decode_grammar_cutLoad :
    (cutLoad 9).get? 254 = some 0x82 ∧ (cutLoad 9).get? 255 = some 9 ∧
    decode (cutLoad 9) 254 = .error (.addressOutOfRange .registers 9) ∧
    (cutLoad 3).get? 255 = some 3 ∧
    decode (cutLoad 3) 254 = .error (.addressOutOfRange .memory 256) := by
  have hopcode : ∀ register, (cutLoad register).get? 254 = some 0x82 := fun _ => rfl
  have hregister : ∀ register, (cutLoad register).get? 255 = some register := fun _ => rfl
  have hmisnamed := (decode_grammar (cutLoad 9)).2 9 (hopcode 9) (hregister 9)
  have hnamed := (decode_grammar (cutLoad 3)).2 3 (hopcode 3) (hregister 3)
  exact ⟨hopcode 9, hregister 9, hmisnamed.1 (by decide), hregister 3, hnamed.2 (by decide)⟩

end LS8

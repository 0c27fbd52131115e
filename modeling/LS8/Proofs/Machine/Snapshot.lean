import LS8.Proofs.Machine.Answers

/-!
# Snapshots are exact and transparent

A snapshot holds everything of a machine but its configuration, and `Machine.restore` takes exactly
the snapshots that describe a machine: those with a program counter inside the memory or right
behind its end and with a complete memory (`Snapshot.RestoresExactly`). What it then builds has that
snapshot again, so nothing of the snapshot is lost; what it refuses changes nothing.

In the other direction, a machine's own snapshot rebuilds it in any machine with the same
configuration (`Machine.restore_snapshot_of_config`). A host can therefore stop anywhere in a
session, carry the snapshot elsewhere and go on: equal machines go on alike
(`Stage.snapshots_exact_and_transparent`). The bound on the program counter is all that this needs,
and every call keeps it.
-/

namespace LS8

variable {σ : Type}

/-- How restoring a snapshot into a machine goes. -/
structure Snapshot.RestoresExactly (snapshot : Snapshot) (t : Machine) : Prop where
  succeeds_iff : (∃ m, t.restore snapshot = .ok m) ↔
    snapshot.pc ≤ 256 ∧ snapshot.memory.length = 256
  restored : ∀ m, t.restore snapshot = .ok m → m.snapshot = snapshot ∧ m.config = t.config
  /-- The program counter is looked at first, whatever the memory is. -/
  far_pc : 256 < snapshot.pc → t.restore snapshot =
    .error (.snapshotLayout ("pc " ++ hexLiteral snapshot.pc ++ " past end of memory"))
  wrong_size : snapshot.pc ≤ 256 → snapshot.memory.length ≠ 256 → t.restore snapshot =
    .error (.snapshotLayout
      ("memory image is " ++ decimal snapshot.memory.length ++ " bytes, expected 256"))
  unchanged : ∀ fault, t.restore snapshot = .error fault → ∀ {σ : Type} (s : σ),
    (Call.restore snapshot).perform ⟨t, s⟩ = ⟨t, s⟩

namespace Memory

/-- An image with 256 bytes is a memory. -/
theorem ofImage_of_length {image : List UInt8} (h : image.length = 256) :
    ∃ memory, ofImage image = .ok memory := by
  unfold ofImage
  rw [dif_pos h]
  exact ⟨_, rfl⟩

/-- An image of any other length is refused with its length. -/
theorem ofImage_of_length_ne {image : List UInt8} (h : image.length ≠ 256) :
    ofImage image = .error (.snapshotLayout
      ("memory image is " ++ decimal image.length ++ " bytes, expected 256")) := by
  have hcapacity : " bytes, expected " ++ decimal capacity = " bytes, expected 256" := by
    decide +kernel
  unfold ofImage
  rw [dif_neg h, String.append_assoc, hcapacity]

end Memory

namespace Machine

variable {m t : Machine} {snapshot : Snapshot}

/-- A program counter out of range is refused first. -/
theorem restore_of_far_pc (t : Machine) (h : 256 < snapshot.pc) : t.restore snapshot =
    .error (.snapshotLayout ("pc " ++ hexLiteral snapshot.pc ++ " past end of memory")) := by
  have hfar : Memory.capacity < snapshot.pc := h
  unfold restore
  rw [if_pos hfar]

/-- Behind the check of the program counter, the memory decides. -/
theorem restore_of_pc_le (t : Machine) (h : snapshot.pc ≤ 256) : t.restore snapshot =
    (Memory.ofImage snapshot.memory).map fun memory =>
      { t with memory, registers := snapshot.registers, pc := snapshot.pc,
               runState := snapshot.runState } := by
  have hnear : ¬ Memory.capacity < snapshot.pc := Nat.not_lt_of_le h
  unfold restore
  rw [if_neg hnear]

/-- Restoring loses nothing of the snapshot. -/
theorem snapshot_of_restore (h : t.restore snapshot = .ok m) : m.snapshot = snapshot := by
  obtain ⟨-, memory, himage, rfl⟩ := eq_of_restore h
  have hcells : memory.toList = snapshot.memory := Memory.toList_of_ofImage himage
  obtain ⟨version, pc, registers, cells, runState⟩ := snapshot
  -- there is only one layout, so the version cannot differ
  cases version
  obtain rfl : memory.toList = cells := hcells
  rfl

/-- **A machine's own snapshot rebuilds it** in any machine with its configuration. -/
theorem restore_snapshot_of_config (hpc : m.pc ≤ 256) (hconfig : t.config = m.config) :
    t.restore m.snapshot = .ok m := by
  rw [restore_snapshot t hpc, hconfig]

end Machine

/-- **A snapshot is restored exactly**, or it is refused and nothing changes. -/
theorem Snapshot.restoresExactly (snapshot : Snapshot) (t : Machine) :
    snapshot.RestoresExactly t where
  succeeds_iff := by
    constructor
    · rintro ⟨m, hm⟩
      exact Machine.restorable_of_restore hm
    · rintro ⟨hpc, hlength⟩
      -- the two checks of a restore, in its order
      obtain ⟨memory, hmemory⟩ := Memory.ofImage_of_length hlength
      rw [Machine.restore_of_pc_le t hpc, hmemory]
      exact ⟨_, rfl⟩
  restored := by
    intro m hm
    refine ⟨Machine.snapshot_of_restore hm, ?_⟩
    obtain ⟨-, memory, -, rfl⟩ := Machine.eq_of_restore hm
    rfl
  far_pc := Machine.restore_of_far_pc t
  wrong_size := by
    intro hpc hlength
    rw [Machine.restore_of_pc_le t hpc, Memory.ofImage_of_length_ne hlength]
    rfl
  unchanged := by
    intro fault hfault σ s
    change (⟨t.settle (t.restore snapshot), s⟩ : Stage σ) = ⟨t, s⟩
    rw [hfault]
    rfl

namespace Stage

variable {c : Stage σ} {config : Config}

/-- A session keeps the program counter in range and the configuration. -/
theorem keeps_afterCalls (h : c.machine.Keeps config) (calls : List (Call σ)) :
    (c.afterCalls calls).machine.Keeps config :=
  afterCalls_induction (P := fun d => d.machine.Keeps config) h fun call _ _ => keeps_perform call

/-- Going on elsewhere from a snapshot is going on. The session may have done anything before the
snapshot is taken, and what comes then may be anything again: the answers, the machine, the sink and
what listeners hear are the same. -/
structure Transparent (c : Stage σ) (t : Machine) : Prop where
  rebuilt : t.restore c.machine.snapshot = .ok c.machine
  continued : ∀ (before : List (Call σ)) {τ : Type} (heard : τ) (later : List (Attended σ τ)),
    ((Call.restore (c.afterCalls before).machine.snapshot).perform
        ⟨t, (c.afterCalls before).sink⟩).attend heard later =
      (c.afterCalls before).attend heard later

/-- Restoring its own snapshot takes a machine back. -/
theorem perform_restore_snapshot {t : Machine} (hpc : c.machine.pc ≤ 256)
    (hconfig : t.config = c.machine.config) :
    (Call.restore c.machine.snapshot).perform ⟨t, c.sink⟩ = c := by
  change (⟨t.settle (t.restore c.machine.snapshot), c.sink⟩ : Stage σ) = c
  rw [Machine.restore_snapshot_of_config hpc hconfig]
  rfl

/-- **Restoring is transparent**: no later session can tell. -/
theorem transparent {t : Machine} (hpc : c.machine.pc ≤ 256)
    (hconfig : t.config = c.machine.config) : c.Transparent t where
  rebuilt := Machine.restore_snapshot_of_config hpc hconfig
  continued := by
    intro before τ heard later
    -- the session before the snapshot has kept the bound and the configuration
    have hkept : c.machine.Keeps c.machine.config := ⟨hpc, rfl⟩
    have hkeeps := keeps_afterCalls hkept before
    have hconfig' : t.config = (c.afterCalls before).machine.config := by
      rw [hconfig, hkeeps.config_eq]
    rw [perform_restore_snapshot hkeeps.pc_le hconfig']

/-- **Snapshots are exact and transparent.** Restoring goes as the snapshot says, into whatever
machine; and a session can be carried on from its snapshot in any machine with the same
configuration. -/
theorem snapshots_exact_and_transparent :
    (∀ (snapshot : Snapshot) (t : Machine), snapshot.RestoresExactly t) ∧
      ∀ (c : Stage σ) (t : Machine), c.machine.pc ≤ 256 → t.config = c.machine.config →
        c.Transparent t :=
  ⟨Snapshot.restoresExactly, fun _ _ => transparent⟩

/-- A machine right behind the end of its memory, stopped by a fault that carries a text. -/
def stoppedAtEnd : Stage (List UInt8) :=
  ⟨{ Machine.new with pc := 256, runState := .faulted (.snapshotLayout "torn") }, []⟩

/-- A machine that has stopped right behind its last cell, and a snapshot with two faults, of which
the first one is reported. -/
theorem snapshots_exact_and_transparent_stoppedAtEnd :
    stoppedAtEnd.machine.pc ≤ 256 ∧ Machine.new.config = stoppedAtEnd.machine.config ∧
      Machine.new.restore stoppedAtEnd.machine.snapshot = .ok stoppedAtEnd.machine ∧
      Machine.new.restore { stoppedAtEnd.machine.snapshot with pc := 257, memory := [] } =
        .error (.snapshotLayout "pc 0x101 past end of memory") := by
  obtain ⟨hexact, htransparent⟩ := snapshots_exact_and_transparent (σ := List UInt8)
  have hpc : stoppedAtEnd.machine.pc ≤ 256 := by decide
  have hfar : "pc " ++ hexLiteral 257 ++ " past end of memory" =
      "pc 0x101 past end of memory" := by
    decide +kernel
  refine ⟨hpc, rfl, (htransparent stoppedAtEnd Machine.new hpc rfl).rebuilt, ?_⟩
  rw [← hfar]
  exact (hexact { stoppedAtEnd.machine.snapshot with pc := 257, memory := [] } Machine.new).far_pc
    (by decide)

end Stage

end LS8

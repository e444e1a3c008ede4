import PokeStroller.Adapter.Slices
import PokeStroller.Soc.BusMoves
import PokeStroller.Soc.Host

/-!
# What an instruction costs

Every instruction of the tables costs between 1 and 22 cycles and does what it
does on the bus, whatever bytes it is decoded from.
-/

namespace PokeStroller.Soc

open Exec

-- ---------------------------------------------------------------------------
-- Tables
-- ---------------------------------------------------------------------------

theorem append_ne_empty {a : String} (h : 0 < a.length) (b : String) : a ++ b ≠ "" := by
  rintro heq
  have hlength := congrArg String.length heq
  rw [String.length_append] at hlength
  have hempty : "".length = 0 := rfl
  omega

theorem invalidInstruction_ne_empty (PC first second : Nat) :
    invalidInstruction PC first second ≠ "" := by
  unfold invalidInstruction
  rw [String.append_assoc, String.append_assoc, String.append_assoc, String.append_assoc]
  exact append_ne_empty (by decide) _

structure Instruction.Good (instruction : Instruction) : Prop where
  execute : OnBus instruction.execute
  positive : 1 ≤ instruction.cycles.Count
  bounded : instruction.cycles.Count ≤ 22

@[simp] theorem Instruction.good_iff (instruction : Instruction) : instruction.Good ↔
    OnBus instruction.execute ∧ 1 ≤ instruction.cycles.Count ∧ instruction.cycles.Count ≤ 22 :=
  ⟨fun h => ⟨h.execute, h.positive, h.bounded⟩, fun ⟨h, h', h''⟩ => ⟨h, h', h''⟩⟩

structure Decodes (decode : Exec Instruction) : Prop where
  onBus : OnBus decode
  good : Returns Instruction.Good decode

namespace InstructionTable

theorem Lookup_good {t : InstructionTable} (hentries : ∀ e ∈ t.entries, e.instruction.Good)
    (hpatterns : ∀ p ∈ t.patterns, p.instruction.Good)
    (h : t.Lookup first second = some instruction) : instruction.Good := by
  unfold Lookup at h
  split at h
  · rename_i e hfind
    cases h
    exact hentries e (List.mem_of_find?_eq_some hfind)
  · obtain ⟨p, hfind, rfl⟩ := Option.map_eq_some_iff.mp h
    exact hpatterns p (List.mem_of_find?_eq_some hfind)

/-- What the keys, the entries, the patterns and the subtables have to be. -/
structure Fine (t : InstructionTable) : Prop where
  first : OnBus t.first_key
  second : OnBus t.second_key
  entries : ∀ e ∈ t.entries, e.instruction.Good
  patterns : ∀ p ∈ t.patterns, p.instruction.Good
  subtables : ∀ u ∈ t.subtables, Decodes u.Decode

@[simp] theorem fine_iff (t : InstructionTable) : t.Fine ↔
    OnBus t.first_key ∧ OnBus t.second_key ∧ (∀ e ∈ t.entries, e.instruction.Good) ∧
      (∀ p ∈ t.patterns, p.instruction.Good) ∧ ∀ u ∈ t.subtables, Decodes u.Decode :=
  ⟨fun h => ⟨h.first, h.second, h.entries, h.patterns, h.subtables⟩,
    fun ⟨h₁, h₂, h₃, h₄, h₅⟩ => ⟨h₁, h₂, h₃, h₄, h₅⟩⟩

theorem Fine.decodes {t : InstructionTable} (h : t.Fine) : Decodes t.Decode := by
  constructor
  · refine .bind h.first fun first => .bind h.second fun second => ?_
    split
    · rename_i hfind
      exact (h.subtables _ (List.mem_of_find?_eq_some hfind)).onBus
    · split
      · exact .pure _
      · exact .bind .get fun _ => .throw ⟨invalidInstruction_ne_empty _ _ _, nofun⟩
  · refine .bind fun first => .bind fun second => ?_
    split
    · rename_i hfind
      exact (h.subtables _ (List.mem_of_find?_eq_some hfind)).good
    · split
      · rename_i hlookup
        exact .pure (Lookup_good h.entries h.patterns hlookup)
      · exact .bind fun _ => .throw _

end InstructionTable

@[simp] theorem key4_onBus {digit : Exec (BitVec 4)} (h : OnBus digit) : OnBus (key4 digit) :=
  .bind h fun _ => .pure _

@[simp] theorem key8_onBus {byte : Exec Byte} (h : OnBus byte) : OnBus (key8 byte) :=
  .bind h fun _ => .pure _

@[simp] theorem topBit_onBus {digit : Exec (BitVec 4)} (h : OnBus digit) : OnBus (topBit digit) :=
  .bind h fun _ => .pure _

@[simp] theorem key20_onBus : OnBus key20 :=
  .bind (wordAt_onBus _) fun _ => .bind cH_onBus fun _ => .pure _

@[simp] theorem register_dH_onBus (sz : Size) : OnBus (do Reg sz (← CPU.dH)) :=
  .bind dH_onBus fun _ => Reg_onBus sz _

section

variable {select : Exec (BitVec 4)}

-- The operands of one size, as `BitVec 8` and the like.
@[simp] theorem binary_b_onBus {source : Exec Byte} (h : OnBus source) (hselect : OnBus select)
    (f) : OnBus (binary .b f source select) := binary_onBus h hselect f
@[simp] theorem binary_w_onBus {source : Exec (BitVec 16)} (h : OnBus source)
    (hselect : OnBus select) (f) : OnBus (binary .w f source select) := binary_onBus h hselect f
@[simp] theorem binary_l_onBus {source : Exec (BitVec 32)} (h : OnBus source)
    (hselect : OnBus select) (f) : OnBus (binary .l f source select) := binary_onBus h hselect f
@[simp] theorem compare_b_onBus {source : Exec Byte} (h : OnBus source) (hselect : OnBus select) :
    OnBus (compare .b source select) := compare_onBus h hselect
@[simp] theorem compare_w_onBus {source : Exec (BitVec 16)} (h : OnBus source)
    (hselect : OnBus select) : OnBus (compare .w source select) := compare_onBus h hselect
@[simp] theorem compare_l_onBus {source : Exec (BitVec 32)} (h : OnBus source)
    (hselect : OnBus select) : OnBus (compare .l source select) := compare_onBus h hselect

end

@[simp] theorem nop_onBus : OnBus (pure () : Exec Unit) := .pure ()

@[simp] theorem decodes_0A : Decodes table0A.Decode := by
  refine InstructionTable.Fine.decodes ?_
  simp [table0A, InstructionCycles.Count]

@[simp] theorem decodes_0B : Decodes table0B.Decode := by
  refine InstructionTable.Fine.decodes ?_
  simp [table0B, InstructionCycles.Count]

@[simp] theorem decodes_0F : Decodes table0F.Decode := by
  refine InstructionTable.Fine.decodes ?_
  simp [table0F, InstructionCycles.Count]

@[simp] theorem decodes_010069 : Decodes table010069.Decode := by
  refine InstructionTable.Fine.decodes ?_
  simp [table010069, InstructionCycles.Count]

@[simp] theorem decodes_01006B : Decodes table01006B.Decode := by
  refine InstructionTable.Fine.decodes ?_
  simp [table01006B, InstructionCycles.Count]

@[simp] theorem decodes_01006D : Decodes table01006D.Decode := by
  refine InstructionTable.Fine.decodes ?_
  simp [table01006D, InstructionCycles.Count]

@[simp] theorem decodes_01006F : Decodes table01006F.Decode := by
  refine InstructionTable.Fine.decodes ?_
  simp [table01006F, InstructionCycles.Count]

@[simp] theorem decodes_0100 : Decodes table0100.Decode := by
  refine InstructionTable.Fine.decodes ?_
  simp [table0100, InstructionCycles.Count]

@[simp] theorem decodes_01C : Decodes table01C.Decode := by
  refine InstructionTable.Fine.decodes ?_
  simp [table01C, InstructionCycles.Count]

@[simp] theorem decodes_01D : Decodes table01D.Decode := by
  refine InstructionTable.Fine.decodes ?_
  simp [table01D, InstructionCycles.Count]

@[simp] theorem decodes_01F : Decodes table01F.Decode := by
  refine InstructionTable.Fine.decodes ?_
  simp [table01F, InstructionCycles.Count]

@[simp] theorem decodes_01 : Decodes table01.Decode := by
  refine InstructionTable.Fine.decodes ?_
  simp [table01, InstructionCycles.Count]

@[simp] theorem decodes_10 : Decodes table10.Decode := by
  refine InstructionTable.Fine.decodes ?_
  simp [table10, InstructionCycles.Count]

@[simp] theorem decodes_11 : Decodes table11.Decode := by
  refine InstructionTable.Fine.decodes ?_
  simp [table11, InstructionCycles.Count]

@[simp] theorem decodes_12 : Decodes table12.Decode := by
  refine InstructionTable.Fine.decodes ?_
  simp [table12, InstructionCycles.Count]

@[simp] theorem decodes_17 : Decodes table17.Decode := by
  refine InstructionTable.Fine.decodes ?_
  simp [table17, InstructionCycles.Count]

@[simp] theorem decodes_1A : Decodes table1A.Decode := by
  refine InstructionTable.Fine.decodes ?_
  simp [table1A, InstructionCycles.Count]

@[simp] theorem decodes_1B : Decodes table1B.Decode := by
  refine InstructionTable.Fine.decodes ?_
  simp [table1B, InstructionCycles.Count]

@[simp] theorem decodes_1F : Decodes table1F.Decode := by
  refine InstructionTable.Fine.decodes ?_
  simp [table1F, InstructionCycles.Count]

@[simp] theorem decodes_58 : Decodes table58.Decode := by
  refine InstructionTable.Fine.decodes ?_
  simp [table58, InstructionCycles.Count]

@[simp] theorem decodes_68 : Decodes table68.Decode := by
  refine InstructionTable.Fine.decodes ?_
  simp [table68, InstructionCycles.Count]

@[simp] theorem decodes_6A : Decodes table6A.Decode := by
  refine InstructionTable.Fine.decodes ?_
  simp [table6A, InstructionCycles.Count]

@[simp] theorem decodes_6C : Decodes table6C.Decode := by
  refine InstructionTable.Fine.decodes ?_
  simp [table6C, InstructionCycles.Count]

@[simp] theorem decodes_6E : Decodes table6E.Decode := by
  refine InstructionTable.Fine.decodes ?_
  simp [table6E, InstructionCycles.Count]

@[simp] theorem decodes_69 : Decodes table69.Decode := by
  refine InstructionTable.Fine.decodes ?_
  simp [table69, InstructionCycles.Count]

@[simp] theorem decodes_6B : Decodes table6B.Decode := by
  refine InstructionTable.Fine.decodes ?_
  simp [table6B, InstructionCycles.Count]

@[simp] theorem decodes_6D : Decodes table6D.Decode := by
  refine InstructionTable.Fine.decodes ?_
  simp [table6D, InstructionCycles.Count]

@[simp] theorem decodes_6F : Decodes table6F.Decode := by
  refine InstructionTable.Fine.decodes ?_
  simp [table6F, InstructionCycles.Count]

@[simp] theorem decodes_79 : Decodes table79.Decode := by
  refine InstructionTable.Fine.decodes ?_
  simp [table79, InstructionCycles.Count]

@[simp] theorem decodes_7A : Decodes table7A.Decode := by
  refine InstructionTable.Fine.decodes ?_
  simp [table7A, InstructionCycles.Count]

@[simp] theorem decodes_7C : Decodes table7C.Decode := by
  refine InstructionTable.Fine.decodes ?_
  simp [table7C, InstructionCycles.Count]

@[simp] theorem decodes_7D : Decodes table7D.Decode := by
  refine InstructionTable.Fine.decodes ?_
  simp [table7D, InstructionCycles.Count]

@[simp] theorem decodes_7E : Decodes table7E.Decode := by
  refine InstructionTable.Fine.decodes ?_
  simp [table7E, InstructionCycles.Count]

@[simp] theorem decodes_7F : Decodes table7F.Decode := by
  refine InstructionTable.Fine.decodes ?_
  simp [table7F, InstructionCycles.Count]

theorem decodes_root : Decodes root.Decode := by
  refine InstructionTable.Fine.decodes ?_
  simp [root, InstructionCycles.Count]

-- ---------------------------------------------------------------------------
-- The processor
-- ---------------------------------------------------------------------------

def Cost (cycles : Byte) : Prop := 1 ≤ cycles.toNat ∧ cycles.toNat ≤ 22

theorem Instruction.Good.cost {instruction : Instruction} (h : instruction.Good) :
    Cost (BitVec.ofNat 8 instruction.cycles.Count) := by
  have hpositive := h.positive
  have hbounded := h.bounded
  unfold Cost
  rw [BitVec.toNat_ofNat]
  omega

theorem CPU.advance_onBus (instruction : Instruction) : OnBus (CPU.advance instruction) :=
  .ite (.pure _) (setCpu_onBus _)

theorem CPU.Cycle_onBus : OnBus CPU.Cycle := by
  refine .bind .get fun s => .ite (.pure _) ?_
  refine .bind_of decodes_root.onBus decodes_root.good fun instruction hgood => ?_
  exact .bind hgood.execute fun _ => .bind (CPU.advance_onBus _) fun _ => .pure _

theorem CPU.Cycle_cost : Returns Cost CPU.Cycle := by
  refine .bind fun s => ?_
  split
  · exact .pure ⟨by decide, by decide⟩
  · refine .bind_of decodes_root.good fun instruction hgood => ?_
    exact .bind fun _ => .bind fun _ => .pure hgood.cost

theorem CPU.Interrupt_onBus (vector_address : BitVec 16) : OnBus (CPU.Interrupt vector_address) := by
  refine .bind (Read16_onBus _) fun target_pc => .ite (.pure _) ?_
  exact .bind .get fun _ => .bind (Push16_onBus _) fun _ => .bind .get fun _ =>
    .bind (Push16_onBus _) fun _ => setCpu_onBus _

theorem Interrupts.Cycle_onBus : OnBus Interrupts.Cycle := by
  refine .bind .get fun s => .ite (.pure _) ?_
  split
  · exact CPU.Interrupt_onBus _
  · exact .pure _

end PokeStroller.Soc

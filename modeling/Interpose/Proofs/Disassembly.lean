import Interpose.Generate.Definition
import Interpose.Proofs.ByteCode

/-!
# What is assembled is well formed

The bytes of code are read back to their end, so the check of the assembling back-end never fails. All
else that a definition can be refused for is something other than malformed bytes.
-/

namespace Interpose

/-- Whether an attempt does not fail because bytes are malformed. -/
def Intact {α : Type} (x : Except EmitError α) : Prop :=
  ∀ name offset, x ≠ .error (.malformed name offset)

namespace Intact

variable {α β : Type} {x : Except EmitError α}

theorem ok (a : α) : Intact (.ok a) := nofun

/-- It does not matter what the attempt was for. -/
theorem error {fault : EmitError} (h : Intact (.error fault : Except EmitError α)) :
    Intact (.error fault : Except EmitError β) :=
  fun name offset hfault => h name offset (congrArg Except.error (Except.error.inj hfault))

theorem bind {f : α → Except EmitError β} (hx : Intact x) (hf : ∀ a, Intact (f a)) : Intact (x >>= f) := by
  rcases x with fault | a
  · exact hx.error
  · exact hf a

theorem map (hx : Intact x) (f : α → β) : Intact (x.map f) := by
  rcases x with fault | a
  · exact hx.error
  · exact ok (f a)

theorem mapM {f : α → Except EmitError β} (hf : ∀ a, Intact (f a)) (l : List α) : Intact (l.mapM f) := by
  induction l with
  | nil => exact ok []
  | cons a l ih =>
      rw [List.mapM_cons]
      exact (hf a).bind fun b => ih.bind fun rest => ok (b :: rest)

end Intact

namespace ClassDef

theorem intact_validate (types : TypeTable) (d : ClassDef) : Intact (d.validate types) := by
  unfold validate
  split
  · nofun
  · split
    · nofun
    · split <;> nofun

theorem intact_verifyAll (codes : List Code) : Intact (verifyAll codes) := by
  induction codes with
  | nil => exact .ok ()
  | cons c codes ih =>
      have hverify : Intact c.verify := by
        unfold Code.verify
        split
        · nofun
        · split <;> nofun
      rw [verifyAll]
      rcases hc : c.verify with fault | deepest
      · exact (hc ▸ hverify).error
      · exact ih

end ClassDef

namespace Emitter

theorem intact_image (e : Emitter) (code : Code) : Intact (e.image code) := by
  unfold image
  cases e.backend with
  | weave => exact .ok _
  | assembly =>
      refine Intact.map ?_ _
      rw [ByteCode.assemble_eq_encode, ByteCode.encode]
      split <;> nofun

/-- No definition is refused because the bytes of its code are malformed. -/
theorem intact_define (e : Emitter) (w : World) (d : ClassDef) (loader : Loader) :
    Intact (e.define w d loader) := by
  have hctor (id : TypeId) (c : CtorDef) : Intact (e.ctor id d.name c) := ((e.intact_image c.code).map _).map _
  have hmethod (id : TypeId) (m : MethodDef) : Intact (e.method id d.name m) := ((e.intact_image m.code).map _).map _
  rw [define]
  refine (d.intact_validate w.types).bind fun _ => ?_
  by_cases hverify : e.verify = true
  · rw [if_pos hverify]
    refine (ClassDef.intact_verifyAll d.codes).bind fun _ => ?_
    exact (Intact.mapM (hctor _) _).bind fun _ => (Intact.mapM (hmethod _) _).bind fun _ => .ok _
  · rw [if_neg hverify]
    exact (Intact.mapM (hctor _) _).bind fun _ => (Intact.mapM (hmethod _) _).bind fun _ => .ok _

/-- **What is assembled is well formed.** From the bytes that code is encoded in its instructions are read back in
order, each with its operand, the offset recorded for the target in the place of a target, and in as many bytes as are
reckoned for it, up to the end of the bytes. So checking the bytes succeeds, and the assembling back-end refuses no
definition because bytes are malformed. -/
theorem assembled_wellFormed :
    (∀ (code : Code) (bytes : Array UInt8), ByteCode.encode code = .ok bytes →
      (∃ read, ByteCode.disassemble? bytes 0 = some read ∧
        List.Forall₂ (ByteCode.ReadsBack code) code.instrs.toList read) ∧
      ByteCode.malformedAt? bytes 0 = none ∧ ByteCode.assemble true code = .ok bytes) ∧
    ∀ (verify : Bool) (w : World) (d : ClassDef) (loader : Loader) (name : String) (offset : Nat),
      (⟨.assembly, verify⟩ : Emitter).define w d loader ≠ .error (.malformed name offset) := by
  refine ⟨fun code bytes h => ?_, fun verify w d loader => intact_define _ w d loader⟩
  obtain ⟨read, hread, hback⟩ := ByteCode.disassemble?_encode h
  exact ⟨⟨read, hread, hback⟩, ByteCode.malformedAt?_eq_none hread,
    (ByteCode.assemble_eq_encode true code).trans h⟩

/-- Code with an operand of every width, a branch forward and one back. -/
def variedCode : Code where
  name := "varied"
  arity := 1
  locals := 1
  instrs := #[.load 0, .ifNull 6, .getStatic .operations, .const 258, .unbox .char, .jump 0, .retVoid]
  constants := #[]

/-- Its bytes. -/
def variedBytes : Array UInt8 :=
  #[0x10, 0, 0, 0x93, 20, 0, 0, 0, 0x20, 1, 0x0a, 2, 1, 0xd1, 2, 0x90, 0, 0, 0, 0, 0xa3]

/-- The branch to the last instruction is read back with its offset, and the one to the first with zero. -/
theorem assembled_wellFormed_varied :
    ByteCode.encode variedCode = .ok variedBytes ∧
      (∃ read, ByteCode.disassemble? variedBytes 0 = some read ∧
        List.Forall₂ (ByteCode.ReadsBack variedCode) variedCode.instrs.toList read ∧
        read = [(.load 0, 3), (.ifNull 20, 5), (.getStatic .operations, 2), (.const 258, 3), (.unbox .char, 2),
          (.jump 0, 5), (.retVoid, 1)]) ∧
      ByteCode.malformedAt? variedBytes 0 = none ∧ ByteCode.assemble true variedCode = .ok variedBytes := by
  have hencode : ByteCode.encode variedCode = .ok variedBytes := rfl
  obtain ⟨⟨read, hread, hback⟩, hwell, hassemble⟩ := assembled_wellFormed.1 variedCode variedBytes hencode
  have hvalue : ByteCode.disassemble? variedBytes 0 = some [(.load 0, 3), (.ifNull 20, 5),
      (.getStatic .operations, 2), (.const 258, 3), (.unbox .char, 2), (.jump 0, 5), (.retVoid, 1)] := by
    decide +kernel
  exact ⟨hencode, ⟨read, hread, hback, Option.some.inj (hread.symm.trans hvalue)⟩, hwell, hassemble⟩

end Emitter

end Interpose

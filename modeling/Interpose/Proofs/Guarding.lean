import Interpose.Machine.Names
import Interpose.Proofs.Nesting
import Interpose.Proofs.Packing

/-!
# Tables that are guarded

A body is tame if it stores only into arrays that it has made, and so do the bodies that it calls by their
names. A world is guarded if each type has the array with its operation numbers, and what is run in it is tame.
An array that is apart from those of the types stays so, whatever is added.
-/

namespace Interpose

/-! ## Tame bodies -/

/-- Whether a constructor runs a generated body, its own or that of the constructor that it inherits. -/
inductive Constructor.Runs : Constructor → CompiledBody → Prop
  | compiled {c : Constructor} {unit : CompiledBody} (h : c.body = .compiled unit) : c.Runs unit
  | inherited {c parent : Constructor} {unit : CompiledBody} (h : c.body = .inherited (some parent))
      (hparent : parent.Runs unit) : c.Runs unit

/-- Whether a body stores only into arrays that it has made, and so do the bodies that it calls by name. -/
inductive CompiledBody.Tame : CompiledBody → Prop
  | intro {unit : CompiledBody} {code : Code} (hconstants : unit.constants = code.constants)
      (hstores : code.StoresOwnIn unit.image)
      (hmethods : ∀ m, .method m ∈ code.constants → ∀ called, m.body = .compiled called → called.Tame)
      (hctors : ∀ c, .ctor c ∈ code.constants → ∀ called, c.Runs called → called.Tame) : unit.Tame

/-- Whether an operation has no generated body but a tame one. -/
def Method.Tame (m : Method) : Prop := ∀ unit, m.body = .compiled unit → unit.Tame

/-- Whether a constructor runs no generated body but a tame one. -/
def Constructor.Tame (c : Constructor) : Prop := ∀ unit, c.Runs unit → unit.Tame

/-- Whether all that a type declares is tame. -/
structure HostType.Tame (t : HostType) : Prop where
  methods : ∀ m ∈ t.methods, m.Tame
  constructors : ∀ c ∈ t.constructors, c.Tame

/-- Whether what a task runs is tame. -/
def Task.Tame : Task → Prop
  | .method m _ _ => m.Tame
  | .constructor c _ _ => c.Tame
  | .dispatch _ _ _ _ => True
  | .function _ _ _ => True

theorem Constructor.Tame.of_inherited {c parent : Constructor} (h : c.Tame)
    (hbody : c.body = .inherited (some parent)) : parent.Tame :=
  fun unit hruns => h unit (.inherited hbody hruns)

theorem Constructor.tame_of_native {c : Constructor} {b : NativeBody} (h : c.body = .native b) : c.Tame := by
  intro unit hruns
  cases hruns with
  | compiled hbody => cases h.symm.trans hbody
  | inherited hbody _ => cases h.symm.trans hbody

theorem Constructor.tame_inherited {c : Constructor} {parent : Option Constructor} (h : c.body = .inherited parent)
    (hparent : ∀ p ∈ parent, p.Tame) : c.Tame := by
  intro unit hruns
  cases hruns with
  | compiled hbody => cases h.symm.trans hbody
  | inherited hbody hruns =>
      cases h.symm.trans hbody
      exact hparent _ rfl unit hruns

/-- The body that a back-end makes of careful code is tame if the types are. -/
theorem Emitter.tame_of_body {e : Emitter} {types : TypeTable} {code : Code} {owner : TypeId}
    {unit : CompiledBody} (h : e.body owner code = .ok unit) (hcode : code.Careful types)
    (htypes : ∀ t ∈ types, t.Tame) : unit.Tame := by
  obtain ⟨image, himage, rfl⟩ := map_eq_ok.1 h
  refine .intro rfl (storesOwnIn_image himage hcode.short hcode.stores) (fun m hm => ?_) fun c hc => ?_
  · obtain ⟨t, ht, hmem⟩ := hcode.constants _ hm
    exact (htypes t ht).methods m hmem
  · obtain ⟨t, ht, hmem⟩ := hcode.constants _ hc
    exact (htypes t ht).constructors c hmem

/-! ## Guarded worlds -/

/-- Whether each type has an array with as many items as it lists operations. If so is asked, it has their
numbers, and all that is declared or remembered is tame. -/
structure World.Guarded (A : Prop) (w : World) : Prop where
  table : ∀ t ∈ w.types, ∀ g, t.generated = some g → ∃ items, w.arrays[g.table.index]? = some items ∧
    items.size = g.operations.length ∧ (A → items = (Array.range g.operations.length).map .operation)
  types : A → ∀ t ∈ w.types, t.Tame
  accessors : A → ∀ p, ∀ x ∈ (w.platform p).accessors.entries, x.2.accessor.Tame

/-- Whether a value is no array that a type has for the numbers of its operations, nor one that is yet to come. -/
def World.Apart (w : World) (v : Value) : Prop :=
  ∀ id, v = .array id → id.index < w.arrays.size ∧
    ∀ t ∈ w.types, ∀ g, t.generated = some g → g.table.index ≠ id.index

/-- Whether a guarded world comes from another one, and what was apart there still is. -/
structure World.Onward (A : Prop) (w w' : World) : Prop where
  guarded : w'.Guarded A
  apart : ∀ v, w.Apart v → w'.Apart v

/-- Whether a world has the types and the arrays of another one, or more arrays, and remembers the same
accessors. -/
structure World.Steady (w w' : World) : Prop where
  types : w'.types = w.types
  arrays : w.KeepsArrays w'
  accessors : ∀ p, (w'.platform p).accessors = (w.platform p).accessors

namespace World

variable {A : Prop} {w w' w'' : World} {t : HostType}

theorem Guarded.lt_size (h : w.Guarded A) (ht : t ∈ w.types) {g : Generation} (hg : t.generated = some g) :
    g.table.index < w.arrays.size := by
  obtain ⟨_, hitems, -⟩ := h.table t ht g hg
  exact (Array.getElem?_eq_some_iff.1 hitems).1

theorem Onward.refl (h : w.Guarded A) : w.Onward A w := ⟨h, fun _ hv => hv⟩

theorem Onward.trans (h : w.Onward A w') (h' : w'.Onward A w'') : w.Onward A w'' :=
  ⟨h'.guarded, fun v hv => h'.apart v (h.apart v hv)⟩

theorem Steady.refl (w : World) : w.Steady w := ⟨rfl, .refl w, fun _ => rfl⟩

theorem Steady.trans (h : w.Steady w') (h' : w'.Steady w'') : w.Steady w'' where
  types := h'.types.trans h.types
  arrays := h.arrays.trans h'.arrays
  accessors p := (h'.accessors p).trans (h.accessors p)

/-- A world is steady in which neither types nor arrays nor platforms change. -/
theorem Steady.of_rest (htypes : w'.types = w.types) (harrays : w'.arrays = w.arrays)
    (hplatforms : w'.platforms = w.platforms) : w.Steady w' where
  types := htypes
  arrays i items hi := by rwa [harrays]
  accessors p := by rw [platform, platform, hplatforms]

theorem Steady.push (w : World) (items : Array Value) :
    w.Steady { w with arrays := w.arrays.push items } where
  types := rfl
  arrays i items' hi := by
    have hlt := (Array.getElem?_eq_some_iff.1 hi).1
    exact (Array.getElem?_push.trans (if_neg (Nat.ne_of_lt hlt))).trans hi
  accessors _ := rfl

/-- What is there is apart where arrays are kept and no types are added. -/
theorem Steady.onward (h : w.Steady w') (hw : w.Guarded A) : w.Onward A w' := by
  refine ⟨⟨fun t ht g hg => ?_, fun hA => h.types ▸ hw.types hA, fun hA p => h.accessors p ▸ hw.accessors hA p⟩,
    fun v hv id hid => ?_⟩
  · obtain ⟨items, hitems, hrest⟩ := hw.table t (h.types ▸ ht) g hg
    exact ⟨items, h.arrays _ _ hitems, hrest⟩
  · obtain ⟨hlt, hother⟩ := hv id hid
    have hkept := h.arrays _ _ (Array.getElem?_eq_getElem hlt)
    exact ⟨(Array.getElem?_eq_some_iff.1 hkept).1, fun t ht => hother t (h.types ▸ ht)⟩

/-- A type that is added has a new array for the numbers of its operations, if it lists any. -/
theorem Guarded.add (hw : w.Guarded A) (htypes : w'.types = t :: w.types)
    (haccessors : ∀ p, (w'.platform p).accessors = (w.platform p).accessors)
    (harrays : (t.generated = none ∧ w'.arrays = w.arrays) ∨
      ∃ g, t.generated = some g ∧ g.table.index = w.arrays.size ∧
        w'.arrays = w.arrays.push ((Array.range g.operations.length).map .operation))
    (htame : A → t.Tame) : w.Onward A w' := by
  have hkept : w.KeepsArrays w' := by
    intro i items hi
    rcases harrays with ⟨-, harrays⟩ | ⟨g, -, -, harrays⟩
    · rwa [harrays]
    · rw [harrays]
      exact (Steady.push w _).arrays i items hi
  refine ⟨⟨fun s hs g hg => ?_, fun hA s hs => ?_, fun hA p => haccessors p ▸ hw.accessors hA p⟩,
    fun v hv id hid => ?_⟩
  · rw [htypes] at hs
    rcases List.mem_cons.1 hs with rfl | hs
    · rcases harrays with ⟨hnone, -⟩ | ⟨g', hg', hindex, harrays⟩
      · cases hnone.symm.trans hg
      · cases hg'.symm.trans hg
        refine ⟨_, by rw [harrays, hindex, Array.getElem?_push_size], ?_, fun _ => rfl⟩
        rw [Array.size_map, Array.size_range]
    · obtain ⟨items, hitems, hrest⟩ := hw.table s hs g hg
      exact ⟨items, hkept _ _ hitems, hrest⟩
  · rw [htypes] at hs
    rcases List.mem_cons.1 hs with rfl | hs
    · exact htame hA
    · exact hw.types hA s hs
  · obtain ⟨hlt, hother⟩ := hv id hid
    have hitems := hkept _ _ (Array.getElem?_eq_getElem hlt)
    refine ⟨(Array.getElem?_eq_some_iff.1 hitems).1, fun s hs g hg => ?_⟩
    rw [htypes] at hs
    rcases List.mem_cons.1 hs with rfl | hs
    · rcases harrays with ⟨hnone, -⟩ | ⟨g', hg', hindex, -⟩
      · cases hnone.symm.trans hg
      · cases hg'.symm.trans hg
        omega
    · exact hother s hs g hg

/-- Defining a class of careful code leads on. -/
theorem Guarded.define (hw : w.Guarded A) {e : Emitter} {d : ClassDef} {loader : Loader} {id : TypeId}
    (h : e.define w d loader = .ok (id, w')) (hcodes : A → ∀ c ∈ d.codes, c.Careful w.types) :
    w.Onward A w' := by
  obtain ⟨-, -, rfl, ctors, methods, hctors, hmethods, rfl⟩ := Emitter.define_eq_ok h
  have htame (hA : A) {owner : TypeId} {c : Code} {unit : CompiledBody} (hc : c ∈ d.codes)
      (hunit : e.body owner c = .ok unit) : unit.Tame :=
    Emitter.tame_of_body hunit (hcodes hA c hc) (hw.types hA)
  refine hw.add (t := ⟨w.types.fresh, d.name, .cls, d.modifiers, some d.superclass, d.interfaces, methods, ctors,
    d.fields, loader, (Emitter.record w d.generated).1⟩) ?_ (fun p => ?_) ?_ fun hA => ⟨fun m hm => ?_, fun c hc => ?_⟩
  · cases d.generated <;> rfl
  · cases d.generated <;> rfl
  · cases d.generated with
    | none => exact .inl ⟨rfl, rfl⟩
    | some g => exact .inr ⟨_, rfl, rfl, rfl⟩
  · obtain ⟨def_, hdef, hmade⟩ := exists_of_forall₂ hmethods hm
    obtain ⟨unit, hunit, rfl⟩ := Emitter.method_eq_ok.1 hmade
    intro called hcalled
    cases hcalled
    exact htame hA (List.mem_append_right _ (List.mem_map_of_mem hdef)) hunit
  · obtain ⟨def_, hdef, hmade⟩ := exists_of_forall₂ hctors hc
    obtain ⟨unit, hunit, rfl⟩ := map_eq_ok.1 hmade
    intro called hcalled
    cases hcalled with
    | inherited hbody _ => cases hbody
    | compiled hbody =>
        cases hbody
        exact htame hA (List.mem_append_left _ (List.mem_map_of_mem hdef)) hunit

/-- Declaring a type leads on. -/
theorem Guarded.declare (hw : w.Guarded A) (d : TypeDecl) : w.Onward A (w.declare d).2 := by
  refine hw.add (t := ⟨w.types.fresh, d.name, d.kind, d.modifiers, d.superclass, d.interfaces,
    d.methods.map (TypeDecl.method w.types.fresh d.name), d.constructors w.types, d.fields, d.loader, none⟩) rfl
    (fun _ => rfl) (.inl ⟨rfl, rfl⟩) fun hA => ⟨fun m hm => ?_, fun c hc => ?_⟩
  · obtain ⟨decl, -, rfl⟩ := List.mem_map.1 hm
    intro unit hunit
    rw [TypeDecl.method] at hunit
    split at hunit <;> cases hunit
  · rw [TypeDecl.constructors] at hc
    dsimp only at hc
    split at hc
    · obtain rfl := List.mem_singleton.1 hc
      refine Constructor.tame_inherited rfl fun parent hparent => ?_
      obtain ⟨s, hs, hfound⟩ := Option.bind_eq_some_iff.1 hparent
      obtain ⟨_, -, hlookup⟩ := Option.bind_eq_some_iff.1 hs
      exact (hw.types hA s (TypeTable.mem_of_lookup? hlookup).1).constructors _ (List.mem_of_find?_eq_some hfound)
    · obtain ⟨decl, -, rfl⟩ := List.mem_map.1 hc
      exact Constructor.tame_of_native rfl

/-- The layers of a subtype lead on. -/
theorem keptByLayers_onward (A : Prop) (w : World) : KeptByLayers (w.Onward A) where
  bridge h _ hbridge := by
    obtain ⟨d, hd, hdefine⟩ := bind_eq_ok.1 hbridge
    exact h.trans (h.guarded.define hdefine fun _ => Layer.careful_bridgeDef hd)
  proxy h hb hproxy := by
    obtain ⟨d, hd, hdefine⟩ := bind_eq_ok.1 hproxy
    exact h.trans (h.guarded.define hdefine fun _ => Layer.careful_proxyDef hd hb)
  rest h htypes harrays _ _ haccessors :=
    h.trans (Steady.onward ⟨htypes, fun _ _ hi => harrays ▸ hi, haccessors⟩ h.guarded)

end World

end Interpose

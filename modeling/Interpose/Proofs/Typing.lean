import Interpose.Proofs.Furnishing
import Interpose.Proofs.Returning

/-!
# The types of field values

A field name that is declared again further down stands for the declaration there: it gives the first value of the
field, it is what a value is checked against before it is stored, and there is one value under the name. So each
value is one that the type of that declaration accepts, in new objects as after any writes, and types that are added
change nothing about that.
-/

namespace Interpose

/-! ## First values -/

/-- What there is once under a name is found there. -/
theorem find?_of_nodup {fields : List (String × Value)} {name : String} {v : Value}
    (hnodup : (fields.map (·.1)).Nodup) (h : (name, v) ∈ fields) : fields.find? (·.1 == name) = some (name, v) := by
  obtain ⟨a, ha, hfirst, hname⟩ := exists_find?_of_mem (q := fun f : String × Value => f.1 == name) h
    (beq_self_eq_true name)
  rw [hfirst, List.inj_on_of_nodup_map hnodup ha h (beq_iff_eq.1 hname)]

namespace TypeTable

variable {new types : TypeTable} {id : TypeId} {name : String} {v : Value}

/-- A type accepts its default. -/
theorem accepts_default (types : TypeTable) (t : ValueType) : types.accepts t (Value.default t) = true := by
  cases t with
  | void | reference _ | array _ => rfl
  | primitive k => exact beq_iff_eq.2 (Primitive.kind_zero k)

/-- A first value is one that the declaration of its name accepts. -/
theorem accepts_of_mem_initialFields (h : (name, v) ∈ types.initialFields id) :
    ∃ f, types.findField? id name = some f ∧ types.accepts f.type v = true := by
  have hfirst := find?_of_nodup nodup_initialFields h
  rw [find?_initialFields, Option.map_eq_some_iff] at hfirst
  obtain ⟨f, hf, heq⟩ := hfirst
  cases heq
  exact ⟨f, hf, types.accepts_default f.type⟩

/-- A name stands for the same field when types are added. -/
theorem Numbered.findField?_append (h : Numbered (new ++ types)) (hid : id.index < types.length) :
    findField? (new ++ types) id name = types.findField? id name := by
  rw [findField?, findField?, lineage_append fun _ => h.ne_of_mem hid]

end TypeTable

/-! ## Objects with values of the types of their fields -/

/-- Whether an object is furnished, and its values are of the types that the names of its fields stand for. -/
structure ObjectState.Typed (types : TypeTable) (s : ObjectState) : Prop extends s.Furnished types where
  accepted : ∀ name v, (name, v) ∈ s.fields →
    ∃ f, types.findField? s.cls name = some f ∧ types.accepts f.type v = true

namespace ObjectState.Typed

variable {added types : TypeTable} {s : ObjectState} {name : String} {v : Value} {f : Field}

/-- There is one value under each name. -/
theorem nodup (h : s.Typed types) : (s.fields.map (·.1)).Nodup :=
  h.names ▸ TypeTable.nodup_initialFields

/-- A new object has the defaults of its types. -/
theorem new {cls : TypeId} (hcls : cls.index < types.length) : Typed types ⟨cls, types.initialFields cls, .unbound⟩ where
  toFurnished := .new hcls
  accepted _ _ := TypeTable.accepts_of_mem_initialFields

/-- An object stays typed when types are added. -/
theorem append (h : s.Typed types) (hnumbered : TypeTable.Numbered (added ++ types)) : s.Typed (added ++ types) where
  toFurnished := h.toFurnished.append hnumbered
  accepted name v hv := by
    obtain ⟨f, hf, haccepts⟩ := h.accepted name v hv
    exact ⟨f, (hnumbered.findField?_append h.known).trans hf, hnumbered.accepts_append haccepts⟩

/-- What an object is bound to makes no difference. -/
theorem bound (h : s.Typed types) (binding : Binding) : Typed types { s with binding := binding } :=
  ⟨⟨h.known, h.names⟩, h.accepted⟩

/-- An object stays typed when a value is stored that the field of the name accepts. -/
theorem store (h : s.Typed types) (hf : types.findField? s.cls name = some f)
    (haccepts : types.accepts f.type v = true) : Typed types { s with fields := World.setIn s.fields name v } where
  known := h.known
  names := World.names_setIn.trans h.names
  accepted other u hu := by
    obtain ⟨old, hold, heq⟩ := List.mem_map.1 hu
    split at heq
    · rename_i hname
      cases heq
      exact ⟨f, beq_iff_eq.1 hname ▸ hf, haccepts⟩
    · subst heq
      exact h.accepted _ _ hold

end ObjectState.Typed

/-! ## Worlds with typed objects -/

/-- Whether types are numbered, the script types that are kept extend types that are there, and all objects are
typed. -/
structure World.Typed (w : World) : Prop where
  numbered : w.types.Numbered
  start : TypeTable.initial <:+ w.types
  scripts : ∀ n ∈ w.names.scripts, n.2.Declared w.types
  objects : ∀ (i : Nat) s, w.objects[i]? = some s → s.Typed w.types

namespace World

variable {w w' : World}

/-- Nothing matters besides the types, the objects, and the script types that are kept. -/
theorem Typed.of_rest (h : w.Typed) (htypes : w'.types = w.types) (hobjects : w'.objects = w.objects)
    (hscripts : ∀ n ∈ w'.names.scripts, n.2.Declared w'.types) : w'.Typed where
  numbered := htypes ▸ h.numbered
  start := htypes ▸ h.start
  scripts := hscripts
  objects := by
    rw [htypes, hobjects]
    exact h.objects

/-- Types that are numbered on can be added. -/
theorem Typed.grown (h : w.Typed) (htypes : w.types <:+ w'.types) (hnumbered : w'.types.Numbered)
    (hobjects : w'.objects = w.objects) (hscripts : w'.names.scripts = w.names.scripts) : w'.Typed where
  numbered := hnumbered
  start := h.start.trans htypes
  scripts n hn := (h.scripts n (hscripts ▸ hn)).mono htypes
  objects i s hs := by
    obtain ⟨new, hnew⟩ := htypes
    rw [← hnew] at hnumbered ⊢
    exact (h.objects i s (hobjects ▸ hs)).append hnumbered

theorem Typed.push (h : w.Typed) {s : ObjectState} (hs : s.Typed w.types) :
    ({ w with objects := w.objects.push s } : World).Typed :=
  { h with
    objects := fun i s' hs' => by
      rw [Array.getElem?_push] at hs'
      split at hs'
      · cases hs'
        exact hs
      · exact h.objects i s' hs' }

theorem Typed.modify (h : w.Typed) (i : Nat) {f : ObjectState → ObjectState}
    (hf : ∀ s, w.objects[i]? = some s → s.Typed w.types → (f s).Typed w.types) :
    ({ w with objects := w.objects.modify i f } : World).Typed :=
  { h with
    objects := fun j s' hs' => by
      rw [Array.getElem?_modify] at hs'
      split at hs'
      · rename_i hij
        obtain ⟨s, hs, rfl⟩ := Option.map_eq_some_iff.1 hs'
        exact hf s (hij ▸ hs) (h.objects j s hs)
      · exact h.objects j s' hs' }

/-! ## What keeps objects typed -/

open Interpose.Action (Preserves PreservesAt)

theorem typed_allocate (cls : TypeId) : Preserves World.Typed (allocate cls) := by
  refine fun w => .of_get ?_
  split
  · exact Preserves.raise w
  · rename_i t ht
    split
    · exact Preserves.raise w
    · obtain ⟨hmem, rfl⟩ := TypeTable.mem_of_lookup? ht
      exact fun h => h.push (.new (h.numbered.index_lt hmem))

/-- A value that is stored was checked against the field of the class that the object was allocated as. -/
theorem typed_setField (o : ObjectRef) (name : String) (v : Value) : Preserves World.Typed (setField o name v) := by
  refine fun w => .of_get ?_
  split
  · exact Preserves.raise w
  · rename_i f hf
    split
    · rename_i haccepts
      refine fun h => h.modify o.index fun s hs hsTyped => hsTyped.store ?_ haccepts
      rw [allocatedAs, hs] at hf
      exact hf
    · exact Preserves.raise w

theorem typed_bind (o : ObjectRef) (id : InstanceId) : Preserves World.Typed (bind o id) := by
  refine fun w => .of_get ?_
  split
  · exact Preserves.pure w
  · exact fun h => h.modify o.index fun s _ hs => hs.bound _

theorem typed_boundTo (o : ObjectRef) : Preserves World.Typed (boundTo o) := by
  refine fun w => .of_get ?_
  split
  · exact Preserves.pure w
  · split
    · exact fun h => h.modify o.index fun s _ hs => hs.bound _
    · exact Preserves.pure w

theorem typed_setProperty (id : InstanceId) (name : String) (v : Value) :
    Preserves World.Typed (setProperty id name v) := by
  refine fun w => .of_get ?_
  split
  · exact Preserves.raise w
  · split
    · exact typed_setField _ name v w
    · exact fun h => h.of_rest rfl rfl h.scripts

end World

end Interpose

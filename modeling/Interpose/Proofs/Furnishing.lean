import Interpose.Proofs.Extensions
import Interpose.Proofs.Recalling

/-!
# The fields of objects

A new object has a value for each field name of its class chain, and for no other. Storing replaces a value that is
there, and nothing else changes fields. So every object keeps the names of its fields, whatever runs and whatever
types are added.
-/

namespace Interpose

/-! ## Names of fields -/

namespace TypeTable

variable {new types : TypeTable} {id : TypeId} {name : String} {f : Field}

/-- The first value of a field is the default of the type that its name stands for. -/
theorem find?_initialFields : (types.initialFields id).find? (·.1 == name) =
    (types.findField? id name).map fun f => (f.name, Value.default f.type) := by
  have hfold (declared : List Field) (fields : List (String × Value)) :
      (declared.foldl (fun fields f => if fields.any (·.1 == f.name) then fields
        else fields ++ [(f.name, Value.default f.type)]) fields).find? (·.1 == name) =
      (fields.find? (·.1 == name)).or ((declared.find? (·.name == name)).map fun f =>
        (f.name, Value.default f.type)) := by
    induction declared generalizing fields with
    | nil => simp
    | cons f declared ih =>
        rw [List.foldl_cons, ih, List.find?_cons]
        split
        · -- a name that is declared again has a value already
          rename_i hhas
          cases hname : f.name == name with
          | false => rfl
          | true =>
              rw [beq_iff_eq.1 hname, ← List.isSome_find?] at hhas
              obtain ⟨old, hold⟩ := Option.isSome_iff_exists.1 hhas
              rw [hold, Option.some_or, Option.some_or]
        · rw [List.find?_append, List.find?_cons, List.find?_nil]
          cases f.name == name with
          | false => rw [Option.or_none]
          | true => cases fields.find? (·.1 == name) <;> rfl
  exact hfold _ []

/-- A new object has a value for each field name of its class chain, and for no other. -/
theorem mem_names_initialFields : name ∈ (types.initialFields id).map (·.1) ↔
    ∃ f ∈ (types.lineage id).flatMap (·.fields), f.name = name := by
  have hfound : ((types.initialFields id).find? (·.1 == name)).isSome = (types.findField? id name).isSome := by
    rw [find?_initialFields, Option.isSome_map]
  rw [List.isSome_find?, findField?, List.isSome_find?, Bool.eq_iff_iff] at hfound
  rw [List.mem_map]
  simpa only [List.any_eq_true, beq_iff_eq] using hfound

/-- It has one value for each. -/
theorem nodup_initialFields : ((types.initialFields id).map (·.1)).Nodup := by
  rw [initialFields]
  refine List.foldlRecOn (motive := fun fields : List (String × Value) => (fields.map (·.1)).Nodup) _ _ ?_
    fun fields hfields f _ => ?_
  · exact List.nodup_nil
  split
  · exact hfields
  · rename_i hnew
    rw [List.map_append, List.map_singleton, ← List.concat_eq_append, List.nodup_concat]
    refine ⟨fun hmem => hnew ?_, hfields⟩
    obtain ⟨old, hold, hname⟩ := List.mem_map.1 hmem
    exact List.any_eq_true.2 ⟨old, hold, beq_iff_eq.2 hname⟩

/-- What new objects of a type have does not change when types are added. -/
theorem Numbered.initialFields_append (h : Numbered (new ++ types)) (hid : id.index < types.length) :
    initialFields (new ++ types) id = types.initialFields id := by
  rw [initialFields, initialFields, lineage_append fun _ => h.ne_of_mem hid]

end TypeTable

namespace World

variable {fields : List (String × Value)} {name other : String} {u v : Value}

theorem names_setIn : (setIn fields name v).map (·.1) = fields.map (·.1) := by
  rw [setIn, List.map_map]
  refine List.map_congr_left fun f _ => ?_
  rw [Function.comp_apply]
  split <;> rfl

/-- Setting a field leaves where fields are found. -/
theorem find?_setIn : (setIn fields name v).find? (·.1 == other) =
    (fields.find? (·.1 == other)).map fun f => if f.1 == name then (f.1, v) else f := by
  rw [setIn, List.find?_map]
  congr 2
  funext f
  rw [Function.comp_apply]
  split <;> rfl

theorem find?_setIn_self (h : fields.find? (·.1 == name) = some (name, u)) :
    (setIn fields name v).find? (·.1 == name) = some (name, v) := by
  rw [find?_setIn, h, Option.map_some, if_pos (beq_self_eq_true name)]

theorem find?_setIn_ne (hne : other ≠ name) :
    (setIn fields name v).find? (·.1 == other) = fields.find? (·.1 == other) := by
  rw [find?_setIn]
  cases h : fields.find? (·.1 == other) with
  | none => rfl
  | some f =>
      have hname := List.find?_some h
      rw [beq_iff_eq] at hname
      rw [Option.map_some, if_neg]
      rwa [hname, beq_iff_eq]

end World

/-! ## Objects with the fields of their class -/

/-- Whether an object is one of a type that is there, and has a value for each field name of its class chain and for
no other. -/
structure ObjectState.Furnished (types : TypeTable) (s : ObjectState) : Prop where
  known : s.cls.index < types.length
  names : s.fields.map (·.1) = (types.initialFields s.cls).map (·.1)

/-- Whether every object is furnished. -/
def World.Furnished (w : World) : Prop := ∀ (i : Nat) s, w.objects[i]? = some s → s.Furnished w.types

namespace ObjectState.Furnished

variable {added types : TypeTable} {s : ObjectState} {name : String}

/-- An object has a value for each field name that is declared. -/
theorem exists_field (h : s.Furnished types) (hname : ∃ f ∈ (types.lineage s.cls).flatMap (·.fields), f.name = name) :
    ∃ v, s.fields.find? (·.1 == name) = some (name, v) := by
  have hmem := TypeTable.mem_names_initialFields.2 hname
  rw [← h.names] at hmem
  obtain ⟨f, hf, rfl⟩ := List.mem_map.1 hmem
  obtain ⟨a, -, hfound, hname⟩ := exists_find?_of_mem (q := fun g : String × Value => g.1 == f.1) hf
    (beq_self_eq_true _)
  exact ⟨a.2, hfound.trans (congrArg some (Prod.ext (beq_iff_eq.1 hname) rfl))⟩

/-- It stays so when types are added. -/
theorem append (h : s.Furnished types) (hnumbered : TypeTable.Numbered (added ++ types)) :
    s.Furnished (added ++ types) where
  known := Nat.lt_of_lt_of_le h.known (List.suffix_append added types).length_le
  names := by rw [hnumbered.initialFields_append h.known, h.names]

/-- A new object is furnished. -/
theorem new {cls : TypeId} (hcls : cls.index < types.length) : Furnished types ⟨cls, types.initialFields cls, .unbound⟩ :=
  ⟨hcls, rfl⟩

end ObjectState.Furnished

namespace World

variable {w w' : World}

theorem Furnished.grown (h : w.Furnished) (hobjects : w'.objects = w.objects) (htypes : w.types <:+ w'.types)
    (hnumbered : w'.types.Numbered) : w'.Furnished := by
  obtain ⟨new, hnew⟩ := htypes
  intro i s hs
  rw [hobjects] at hs
  rw [← hnew] at hnumbered ⊢
  exact (h i s hs).append hnumbered

theorem Furnished.push (h : w.Furnished) {s : ObjectState} (hs : s.Furnished w.types) :
    ({ w with objects := w.objects.push s } : World).Furnished := by
  intro i s' hs'
  change (w.objects.push s)[i]? = some s' at hs'
  rw [Array.getElem?_push] at hs'
  split at hs'
  · cases hs'
    exact hs
  · exact h i s' hs'

theorem Furnished.modify (h : w.Furnished) (i : Nat) {f : ObjectState → ObjectState}
    (hf : ∀ s, (f s).cls = s.cls ∧ (f s).fields.map (·.1) = s.fields.map (·.1)) :
    ({ w with objects := w.objects.modify i f } : World).Furnished := by
  intro j s' hs'
  change (w.objects.modify i f)[j]? = some s' at hs'
  rw [Array.getElem?_modify] at hs'
  split at hs'
  · obtain ⟨s, hs, rfl⟩ := Option.map_eq_some_iff.1 hs'
    obtain ⟨hcls, hnames⟩ := hf s
    obtain ⟨hknown, hsame⟩ := h j s hs
    exact ⟨hcls ▸ hknown, by rw [hnames, hcls, hsame]⟩
  · exact h j s' hs'

/-! ## What keeps objects furnished -/

open Interpose.Action (Keeps Preserves PreservesAt)

theorem furnished_allocate (hnumbered : w.types.Numbered) (cls : TypeId) :
    PreservesAt World.Furnished w (allocate cls) := by
  refine .of_get ?_
  split
  · exact Preserves.raise w
  · rename_i t ht
    split
    · exact Preserves.raise w
    · obtain ⟨hmem, rfl⟩ := TypeTable.mem_of_lookup? ht
      exact fun h => h.push (.new (hnumbered.index_lt hmem))

theorem furnished_setField (o : ObjectRef) (name : String) (v : Value) :
    PreservesAt World.Furnished w (setField o name v) := by
  refine .of_get ?_
  split
  · exact Preserves.raise w
  · split
    · exact fun h => h.modify o.index fun s => ⟨rfl, names_setIn⟩
    · exact Preserves.raise w

theorem furnished_bind (o : ObjectRef) (id : InstanceId) : PreservesAt World.Furnished w (bind o id) := by
  refine .of_get ?_
  split
  · exact Preserves.pure w
  · exact fun h => h.modify o.index fun s => ⟨rfl, rfl⟩

theorem furnished_boundTo (o : ObjectRef) : PreservesAt World.Furnished w (boundTo o) := by
  refine .of_get ?_
  split
  · exact Preserves.pure w
  · split
    · exact fun h => h.modify o.index fun s => ⟨rfl, rfl⟩
    · exact Preserves.pure w

theorem furnished_setProperty (id : InstanceId) (name : String) (v : Value) :
    PreservesAt World.Furnished w (setProperty id name v) := by
  refine .of_get ?_
  split
  · exact Preserves.raise w
  · split
    · exact furnished_setField _ name v
    · exact fun h => h

/-- A request leaves objects and script objects alone. -/
theorem objects_createExtensionType (p : PlatformId) (base : TypeId) (interfaces properties : List TypeId)
    (parent : Loader) (w : World) :
    (w.createExtensionType p base interfaces properties parent).2.objects = w.objects ∧
      (w.createExtensionType p base interfaces properties parent).2.instances = w.instances := by
  have hdefine {e : Emitter} {v v' : World} {d : ClassDef} {loader : Loader} {id : TypeId}
      (h : e.define v d loader = .ok (id, v')) (hv : v.objects = w.objects ∧ v.instances = w.instances) :
      v'.objects = w.objects ∧ v'.instances = w.instances := by
    obtain ⟨t, arrays, -, -, rfl⟩ := Emitter.defines_of_define h
    exact hv
  have hkept : KeptByLayers fun v => v.objects = w.objects ∧ v.instances = w.instances := by
    refine ⟨fun h _ hbridge => ?_, fun h _ hproxy => ?_, fun h _ _ hobjects hinstances _ =>
      ⟨hobjects.trans h.1, hinstances.trans h.2⟩⟩
    · obtain ⟨_, -, hmade⟩ := bind_eq_ok.1 hbridge
      exact hdefine hmade h
    · obtain ⟨_, -, hmade⟩ := bind_eq_ok.1 hproxy
      exact hdefine hmade h
  exact hkept.createExtensionType p base interfaces properties parent ⟨rfl, rfl⟩

/-- So objects stay furnished when a subtype of types that are there is asked for. -/
theorem Furnished.createExtensionType (hs : w.Sane) (h : w.Furnished) (p : PlatformId) {base : TypeId}
    {interfaces properties : List TypeId} (parent : Loader)
    (hdeclared : ∀ i ∈ base :: (interfaces ++ properties), i.index < w.types.length) :
    (w.createExtensionType p base interfaces properties parent).2.Furnished := by
  obtain ⟨hlater, -⟩ := later_createExtensionType (w := w) p parent fun _ => hdeclared
  exact h.grown (w.objects_createExtensionType ..).1 hlater.types (hlater.sane hs).numbered

/-- Whatever runs in a sane world leaves objects furnished. -/
theorem invariant_furnished : World.Invariant fun w => w.Sane ∧ w.Furnished := by
  have hkeeps {α : Type} {x : Action α} (hx : Keeps x) {w : World} (h : PreservesAt World.Furnished w x)
      (hw : w.Sane ∧ w.Furnished) : (x w).2.Sane ∧ (x w).2.Furnished := ⟨(hx w).sane hw.1, h hw.2⟩
  refine ⟨⟨fun {w} _ _ _ _ _ hw => ⟨Later.sane (w := w) (.of_rest rfl rfl rfl rfl rfl rfl rfl) hw.1, hw.2⟩,
    fun cls hw => hkeeps (keeps_allocate cls) (furnished_allocate hw.1.numbered cls) hw,
    fun o name v => hkeeps (keeps_setField o name v) (furnished_setField o name v),
    fun o id => hkeeps (keeps_bind o id) (furnished_bind o id),
    fun o => hkeeps (keeps_boundTo o) (furnished_boundTo o),
    fun i => hkeeps (keeps_addInstance i) id,
    fun p real op => hkeeps (Runner.keeps_resolve p real op) ?_,
    fun p mark hw => ⟨hw.1.marked, hw.2⟩, fun p n hn hw => ?_⟩,
    fun id name v => hkeeps (keeps_setProperty id name v) (furnished_setProperty id name v)⟩
  · intro h
    rw [Runner.resolve_snd]
    exact h
  · have hdeclared := hw.1.scripts n hn
    obtain ⟨hlater, -⟩ := later_createExtensionType p .system fun _ => hdeclared
    exact ⟨hlater.sane hw.1, hw.2.createExtensionType hw.1 p .system hdeclared⟩

theorem Furnished.exec (hs : w.Sane) (h : w.Furnished) (steps depth : Nat) (task : Task) :
    (exec steps depth task w).2.Furnished :=
  (Runner.preserves_exec invariant_furnished steps depth task w ⟨hs, h⟩).2

/-- In the first world there are no objects. -/
theorem furnished_of_empty (h : w.objects = #[]) : w.Furnished := by
  intro i s hs
  rw [h] at hs
  cases hs

end World

end Interpose

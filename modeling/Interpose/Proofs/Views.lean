import Interpose.Proofs.Asking
import Interpose.Proofs.Heaps
import Interpose.Proofs.Importing

/-!
# Views of fields

A new script object has a view of each field of the class chain of its base that is not static and that its script does
not define as a function. Nothing makes another property a view, and nothing takes a view away. What a view does is
what the field of the bridge does, and any other property is what it was set to last.
-/

namespace Interpose

/-! ## Properties of new script objects -/

namespace ScriptType

variable {types : TypeTable} {s : ScriptType} {name : String}

/-- Whether script objects of a script type have a view of a name: a field of the class chain of its base that is not
static has the name, and no function of the script does. -/
def Views (types : TypeTable) (s : ScriptType) (name : String) : Prop :=
  s.defines name = false ∧ ∃ f ∈ (types.lineage s.base).flatMap (·.fields), f.modifiers.isStatic = false ∧ f.name = name

/-- The views after one more field: it gives one of its name, unless it is static, a function hides it or its name is
there. -/
def withView (s : ScriptType) (views : List (String × Property)) (f : Field) : List (String × Property) :=
  if f.modifiers.isStatic || s.defines f.name || views.any (·.1 == f.name) then views
  else views ++ [(f.name, .live)]

theorem any_withView {views : List (String × Property)} {f : Field} :
    (s.withView views f).any (·.1 == name) = true ↔ views.any (·.1 == name) = true ∨
      s.defines name = false ∧ f.modifiers.isStatic = false ∧ f.name = name := by
  rw [withView]
  split
  · rename_i hskipped
    refine ⟨.inl, fun h => h.elim id fun ⟨hdefines, hstatic, hname⟩ => ?_⟩
    subst hname
    rwa [hstatic, hdefines, Bool.false_or, Bool.false_or] at hskipped
  · rename_i hgives
    simp only [Bool.or_eq_true, not_or, Bool.not_eq_true] at hgives
    rw [List.any_append, Bool.or_eq_true, List.any_cons, List.any_nil, Bool.or_false, beq_iff_eq]
    refine or_congr_right ⟨fun hname => ⟨hname ▸ hgives.1.2, hgives.1.1, hname⟩, fun h => h.2.2⟩

theorem any_foldl_withView (fields : List Field) (views : List (String × Property)) :
    (fields.foldl s.withView views).any (·.1 == name) = true ↔ views.any (·.1 == name) = true ∨
      s.defines name = false ∧ ∃ f ∈ fields, f.modifiers.isStatic = false ∧ f.name = name := by
  induction fields generalizing views with
  | nil => simp
  | cons f fields ih =>
    rw [List.foldl_cons, ih, any_withView, or_assoc, ← and_or_left]
    simp only [List.mem_cons, exists_eq_or_imp]

/-- New script objects have views, and these only. -/
theorem property?_liveProperties (o : ObjectRef) (p : PlatformId) :
    (Instance.mk s o p (s.liveProperties types)).property? name = some .live ∧ s.Views types name ∨
      (Instance.mk s o p (s.liveProperties types)).property? name = none ∧ ¬s.Views types name := by
  have hviews : s.Views types name ↔ (s.liveProperties types).any (·.1 == name) = true :=
    ((any_foldl_withView _ []).trans (or_iff_right Bool.false_ne_true)).symm
  have hlive : ∀ e ∈ s.liveProperties types, e.2 = Property.live := by
    refine List.foldlRecOn (motive := fun views : List (String × Property) => ∀ e ∈ views, e.2 = Property.live) _ _
      nofun fun views hall f _ => ?_
    split
    · exact hall
    · exact List.forall_mem_append.2 ⟨hall, List.forall_mem_singleton.2 rfl⟩
  rw [Instance.property?, hviews]
  cases hfound : (s.liveProperties types).find? (·.1 == name) with
  | none =>
    refine .inr ⟨rfl, ?_⟩
    rw [List.any_eq_true]
    rintro ⟨e, he, hname⟩
    exact List.find?_eq_none.1 hfound e he hname
  | some e =>
    have hmem := List.mem_of_find?_eq_some hfound
    have hname := List.find?_some hfound
    refine .inl ⟨?_, List.any_eq_true.2 ⟨e, hmem, hname⟩⟩
    rw [Option.map_some, hlive e hmem]

/-- Types that are added give no views. -/
theorem views_append {new : TypeTable} (h : TypeTable.Numbered (new ++ types)) (hbase : s.base.index < types.length) :
    s.Views (new ++ types) name ↔ s.Views types name := by
  rw [Views, Views, TypeTable.lineage_append fun _ => h.ne_of_mem hbase]

end ScriptType

/-! ## Properties that are set -/

/-- The value that a request sets a property to, if it does. -/
def Request.sets? (id : InstanceId) (name : String) : Request → Option Value
  | .setProperty other n v => if other = id ∧ n = name then some v else none
  | _ => none

namespace Instance

variable {i : Instance} {id : InstanceId} {name : String} {v : Value}

theorem property?_hold (other : String) :
    (i.hold name v).property? other = if name = other then some (.held v) else i.property? other := by
  rw [property?, hold, List.find?_cons]
  by_cases hname : name = other
  · simp only [hname, beq_self_eq_true, if_true, Option.map_some]
  · have hkept : (fun e : String × Property => decide ((e.1 != name) = true ∧ (e.1 == other) = true)) =
        fun e => e.1 == other := by
      funext e
      by_cases he : e.1 = other
      · have hne : e.1 ≠ name := fun h => hname (h.symm.trans he)
        simp [he, bne_iff_ne.2 (he ▸ hne)]
      · simp [he]
    simp only [beq_eq_false_iff_ne.2 hname, if_neg hname, List.find?_filter, hkept]
    rfl

/-- Requests change nothing but properties. -/
theorem exists_properties_after (asked : List Request) :
    ∃ properties, i.after id asked = { i with properties := properties } := by
  induction asked generalizing i with
  | nil => exact ⟨i.properties, rfl⟩
  | cons r asked ih =>
    have hstep : ∃ properties, i.answering id r = { i with properties := properties } := by
      cases r with
      | setProperty other n v =>
        rw [answering, setting]
        split
        · split
          · exact ⟨i.properties, rfl⟩
          · exact ⟨_, rfl⟩
        · exact ⟨i.properties, rfl⟩
      | _ => exact ⟨i.properties, rfl⟩
    obtain ⟨next, hnext⟩ := hstep
    obtain ⟨properties, hproperties⟩ := ih (i := { i with properties := next })
    have hcons : i.after id (r :: asked) = (i.answering id r).after id asked := rfl
    exact ⟨properties, by rw [hcons, hnext, hproperties]⟩

/-- Setting a property leaves views as they are, and all others besides. -/
theorem property?_setting (other : String) :
    (i.setting name v).property? other =
      if name = other ∧ i.property? name ≠ some .live then some (.held v) else i.property? other := by
  rw [setting]
  split
  · rename_i hlive
    rw [if_neg fun h => h.2 hlive]
  · rename_i hlive
    rw [property?_hold]
    exact if_congr ⟨fun h => ⟨h, hlive⟩, And.left⟩ rfl rfl

/-- A view stays one, and another property is what it is set to. -/
theorem property?_answering (r : Request) :
    (i.answering id r).property? name = if i.property? name = some .live then some .live
      else ((r.sets? id name).map .held).or (i.property? name) := by
  cases r with
  | setProperty other n v =>
    rw [answering, Request.sets?]
    by_cases hset : other = id ∧ n = name
    · obtain ⟨rfl, rfl⟩ := hset
      rw [if_pos rfl, property?_setting]
      by_cases hlive : i.property? n = some .live
      · rw [if_neg fun h => h.2 hlive, if_pos hlive, hlive]
      · rw [if_pos ⟨rfl, hlive⟩, if_neg hlive, if_pos ⟨rfl, rfl⟩]
        rfl
    · have hsame : (if other = id then i.setting n v else i).property? name = i.property? name := by
        split
        · rename_i hid
          rw [property?_setting, if_neg fun h => hset ⟨hid, h.1⟩]
        · rfl
      rw [hsame, if_neg hset]
      split
      · assumption
      · rfl
  | _ =>
    split
    · assumption
    · rfl

/-- After some requests a view is one still, and another property is what it was set to last. -/
theorem property?_after (asked : List Request) :
    (i.after id asked).property? name = if i.property? name = some .live then some .live
      else ((asked.filterMap (·.sets? id name)).getLast?.map .held).or (i.property? name) := by
  induction asked generalizing i with
  | nil =>
    split
    · assumption
    · rfl
  | cons r asked ih =>
    have hnext : i.after id (r :: asked) = (i.answering id r).after id asked := rfl
    rw [hnext, ih, property?_answering]
    by_cases hlive : i.property? name = some .live
    · rw [if_pos hlive, if_pos rfl, if_pos hlive]
    · rw [if_neg hlive, if_neg hlive, List.filterMap_cons]
      cases r.sets? id name with
      | none => exact if_neg hlive
      | some v =>
        rw [Option.map_some, Option.some_or, if_neg nofun, List.getLast?_cons]
        cases (asked.filterMap (·.sets? id name)).getLast? <;> rfl

end Instance

/-! ## Courses of events -/

/-- Making a script object leaves objects furnished. -/
theorem World.furnished_extend {w : World} {script : ScriptType} (hs : w.Sane) (h : w.Furnished)
    (hdeclared : script.Declared w.types) (steps depth : Nat) (p : PlatformId) (params : List ValueType)
    (args : List Value) : ((exec steps depth).extend p script params args w).2.Furnished :=
  (Runner.preservesAt_extend invariant_furnished.toKeptAside (Runner.preserves_exec invariant_furnished steps depth)
    (fun hw => ⟨(later_createExtensionType p .system fun _ => hdeclared).1.sane hw.1,
      hw.2.createExtensionType hw.1 p .system hdeclared⟩) params args ⟨hs, h⟩).2

/-- What can happen from one world to another, with all that is asked for in the course of it: an embedding program asks
for things as a body does, runs tasks and makes more script objects. In between anything may have happened that leaves
script objects as they are and objects furnished. -/
inductive World.Course (w : World) : List Request → World → Prop
  | start : Course w [] w
  | perform {asked : List Request} {w' : World} (before : Course w asked w') (steps depth : Nat) (r : Request) :
      Course w (asked ++ r.asked (Call.asked steps depth) w') ((exec steps depth).perform r w').2
  | run {asked : List Request} {w' : World} (before : Course w asked w') (steps depth : Nat) (task : Task) :
      Course w (asked ++ Call.asked steps depth ⟨task, w'⟩) (exec steps depth task w').2
  | extend {asked : List Request} {w' : World} (before : Course w asked w') (steps depth : Nat) (p : PlatformId)
      {script : ScriptType} (params : List ValueType) (args : List Value) (declared : script.Declared w'.types) :
      Course w (asked ++ (Runner.extendCalls p script params args w').flatMap (Call.asked steps depth))
        ((exec steps depth).extend p script params args w').2
  | meanwhile {asked : List Request} {w' w'' : World} (before : Course w asked w') (later : w'.Later w'')
      (furnished : w''.Furnished) (same : w''.instances = w'.instances) : Course w asked w''

namespace World.Course

variable {w w' : World} {asked : List Request}

theorem follows (h : w.Course asked w') : Follows asked w w' := by
  induction h with
  | start => exact .of_instances rfl
  | perform _ steps depth r ih => exact ih.trans (Runner.follows_perform (follows_exec steps depth) r)
  | run _ steps depth task ih => exact ih.trans (follows_exec steps depth task _)
  | extend _ steps depth p params args _ ih =>
    exact ih.trans (Runner.follows_extend (follows_exec steps depth) p _ params args)
  | @meanwhile asked _ _ _ _ _ same ih =>
    rw [← List.append_nil asked]
    exact ih.trans (.of_instances same)

theorem later (h : w.Course asked w') : w.Later w' := by
  induction h with
  | start => exact .refl w
  | perform _ steps depth r ih => exact ih.trans (Runner.later_perform steps depth r _)
  | run _ steps depth task ih => exact ih.trans (agreeAt_exec steps depth task _).later
  | extend _ steps depth p params args declared ih => exact ih.trans (Runner.later_extend fun _ => declared)
  | meanwhile _ later _ _ ih => exact ih.trans later

theorem furnished (h : w.Course asked w') (hs : w.Sane) (hfurnished : w.Furnished) : w'.Furnished := by
  have hruns (steps depth : Nat) := Runner.preserves_exec invariant_furnished steps depth
  induction h with
  | start => exact hfurnished
  | perform before steps depth r ih =>
    exact (Runner.preserves_perform invariant_furnished (hruns steps depth) r _ ⟨before.later.sane hs, ih⟩).2
  | run before steps depth task ih => exact (hruns steps depth task _ ⟨before.later.sane hs, ih⟩).2
  | extend before steps depth p params args declared ih =>
    exact furnished_extend (before.later.sane hs) ih declared steps depth p params args
  | meanwhile _ _ furnished _ _ => exact furnished

/-- Setting a property goes on with a course. -/
theorem setProperty {w'' : World} {id : InstanceId} {name : String} {v : Value} (h : w.Course asked w')
    (hset : World.setProperty id name v w' = (.ok (), w'')) : w.Course (asked ++ [.setProperty id name v]) w'' := by
  have hperform : ((exec 0 0).perform (.setProperty id name v) w').2 = w'' :=
    congrArg Prod.snd (Action.bind_apply_ok hset)
  have hcourse : w.Course (asked ++ [.setProperty id name v]) _ := h.perform 0 0 (.setProperty id name v)
  rwa [hperform] at hcourse

end World.Course

/-! ## Script objects that were made -/

namespace World

variable {w w' : World} {p : PlatformId} {proxy : TypeId} {script : ScriptType} {params : List ValueType}
  {args : List Value} {id : InstanceId} {steps depth : Nat}

/-- Whether a script object has its first properties, and its bridge is an object of the bridge's class. -/
structure New (w : World) (p : PlatformId) (script : ScriptType) (id : InstanceId) (o : ObjectRef) : Prop where
  «instance» : w.instances[id.index]? = some ⟨script, o, p, script.liveProperties w.types⟩
  bridge : ∃ s, w.objects[o.index]? = some s ∧ s.cls = o.cls

theorem exists_new_of_createInstance
    (h : (exec steps depth).createInstance p proxy script params args w = (.ok (.ok id), w')) :
    ∃ o, o.cls = proxy ∧ w'.New p script id o := by
  rcases Runner.createInstance_cases (exec steps depth) p proxy script params args w with
    ⟨e, heq, -⟩ | ⟨t, c, hlength, hlookup, hconcrete, hfound⟩
  · rw [heq] at h
    cases h
  · rw [Runner.createInstance_of_some hlength hlookup hconcrete hfound] at h
    have hlater := (agreeAt_exec steps depth (.constructor c ⟨w.objects.size, proxy⟩ args)
      ((w.allocated proxy).marked p (some ⟨w.objects.size, proxy⟩))).later
    -- the bridge is still there when its constructor has run
    obtain ⟨s, hstate, hbecomes⟩ := hlater.objects w.objects.size _ Array.getElem?_push_size
    rcases hrun : exec steps depth (.constructor c ⟨w.objects.size, proxy⟩ args)
      ((w.allocated proxy).marked p (some ⟨w.objects.size, proxy⟩)) with ⟨(_ | e) | v, after⟩
    all_goals
      rw [hrun] at hstate
      simp only [hrun, ScriptType.concluded] at h
    · cases h
    · cases h
    · split at h
      · cases h
      · cases h
        refine ⟨⟨w.objects.size, proxy⟩, rfl, Array.getElem?_push_size,
          { s with binding := .bound ⟨after.instances.size⟩ }, ?_, hbecomes.cls⟩
        change (after.objects.modify w.objects.size _)[w.objects.size]? = _
        rw [Array.getElem?_modify, if_pos rfl, hstate]
        rfl

end World

/-! ## What properties do -/

namespace World

variable {w w' : World} {id : InstanceId} {i : Instance} {o : ObjectRef} {s : ObjectState} {name : String}

/-- Whether a property of a script object is a field of an object: it reads and writes the field, and so a value is
refused exactly if the field does not accept it, or there is none, and nothing changes then. -/
structure ViewsField (w : World) (id : InstanceId) (o : ObjectRef) (name : String) : Prop where
  read : getProperty id name w = getField o name w
  write : ∀ v, setProperty id name v w = setField o name v w
  refused : ∀ v, (∃ e, (setProperty id name v w).1 = .error e) ↔
    ¬∃ f, w.types.findField? o.cls name = some f ∧ w.types.accepts f.type v = true
  unchanged : ∀ v e w', setProperty id name v w = (.error e, w') → w' = w
  stored : ∀ v w', setProperty id name v w = (.ok (), w') → getProperty id name w' = (.ok v, w')

/-- Whether a property of a script object is its own: it has the value that it was set to, if it was, and it can be set
to any value without changing an object. -/
structure OwnsProperty (w : World) (id : InstanceId) (s : ScriptType) (name : String) (last : Option Value) : Prop where
  read : getProperty id name w =
    (last.elim (.error (.raised (.noSuchField (s.name ++ "." ++ name)))) .ok, w)
  write : ∀ v, (setProperty id name v w).1 = .ok () ∧ (setProperty id name v w).2.objects = w.objects

theorem getProperty_apply (hi : w.instances[id.index]? = some i) : getProperty id name w =
    match i.property? name with
    | some (.held v) => (.ok v, w)
    | some .live => getField i.bridge name w
    | none => (.error (.raised (.noSuchField (i.script.name ++ "." ++ name))), w) := by
  rw [getProperty, Action.bind_apply_ok (Action.get_apply w), hi]
  dsimp only
  rcases i.property? name with _ | _ | _ <;> rfl

/-- A value is refused exactly if there is no field of the name that accepts it. -/
theorem setField_refused_iff {v : Value} : (∃ e, (setField o name v w).1 = .error e) ↔
    ¬∃ f, w.types.findField? (w.allocatedAs o) name = some f ∧ w.types.accepts f.type v = true := by
  rw [setField_apply]
  constructor
  · rintro ⟨e, he⟩ ⟨f, hf, haccepts⟩
    rw [hf] at he
    dsimp only at he
    rw [if_pos haccepts] at he
    cases he
  · intro hrefused
    cases hf : w.types.findField? (w.allocatedAs o) name with
    | none => exact ⟨_, rfl⟩
    | some f =>
      dsimp only
      rw [if_neg fun haccepts => hrefused ⟨f, hf, haccepts⟩]
      exact ⟨_, rfl⟩

/-- A value that a field was set to is the field's, and script objects are as they were. -/
theorem getField_of_setField {v : Value} (hobject : w.objects[o.index]? = some s) (hfurnished : s.Furnished w.types)
    (h : setField o name v w = (.ok (), w')) : w'.instances = w.instances ∧ getField o name w' = (.ok v, w') := by
  have hallocated : w.allocatedAs o = s.cls := by rw [allocatedAs, hobject]
  have hfields : w.fieldsOf o = s.fields := by rw [fieldsOf, hobject]
  rw [setField_apply, hallocated] at h
  cases hfound : w.types.findField? s.cls name with
  | none =>
    rw [hfound] at h
    cases h
  | some f =>
    simp only [hfound] at h
    split at h
    · cases h
      have hname : f.name = name := by simpa using List.find?_some hfound
      obtain ⟨u, hu⟩ := hfurnished.exists_field ⟨f, List.mem_of_find?_eq_some hfound, hname⟩
      refine ⟨rfl, ?_⟩
      rw [getField_apply, fieldsOf_stored, hfields, find?_setIn_self hu]
    · cases h

/-- A property that is a view is the field of the bridge. -/
theorem viewsField_of_live (hi : w.instances[id.index]? = some i) (hlive : i.property? name = some .live)
    (hobject : w.objects[i.bridge.index]? = some s) (hcls : s.cls = i.bridge.cls) (hfurnished : s.Furnished w.types) :
    w.ViewsField id i.bridge name := by
  have hread {w : World} (hi : w.instances[id.index]? = some i) :
      getProperty id name w = getField i.bridge name w := by
    rw [getProperty_apply hi, hlive]
  have hwrite (v : Value) : setProperty id name v w = setField i.bridge name v w := by
    rw [setProperty_apply hi, if_pos hlive]
  have hallocated : w.allocatedAs i.bridge = i.bridge.cls := by rw [allocatedAs, hobject, ← hcls]
  refine ⟨hread hi, hwrite, fun v => ?_, fun v e w' => atomic_setProperty id name v w e w', fun v w' hset => ?_⟩
  · rw [hwrite, setField_refused_iff, hallocated]
  · rw [hwrite] at hset
    obtain ⟨hinstances, hget⟩ := getField_of_setField hobject hfurnished hset
    rw [hread (hinstances ▸ hi), hget]

/-- A property that is no view is the script object's own. -/
theorem ownsProperty_of_not_live {last : Option Value} (hi : w.instances[id.index]? = some i)
    (hown : i.property? name = last.map .held) : w.OwnsProperty id i.script name last := by
  refine ⟨?_, fun v => ?_⟩
  · rw [getProperty_apply hi, hown]
    cases last <;> rfl
  · have hlive : i.property? name ≠ some .live := by
      rw [hown]
      cases last <;> nofun
    rw [setProperty_apply hi, if_neg hlive]
    exact ⟨rfl, rfl⟩

end World

/-! ## Fields of bridges -/

namespace World.Stands

variable {e : Emitter} {w w₀ : World} {older : TypeTable} {base b t : HostType} {interfaces properties : List TypeId}
  {pairs : List PropertyPair} {name : String}
  (h : w.Stands e older w₀ base interfaces properties b t) (hclass : base.isInterface = false)

include h hclass

/-- A subtype of a class is below it. -/
theorem lineage_of_class : w.types.lineage t.id = t :: b :: w.types.lineage base.id := by
  have hsuper : Layer.bridgeSuperclass base = base.id := by
    rw [Layer.bridgeSuperclass, hclass]
    rfl
  rw [h.lineage_layers, hsuper, h.lineage_base]

/-- A name that is no property's stands for the field that it stands for on the class. -/
theorem findField?_of_class (hbuilt : e.Built older base interfaces properties pairs b t)
    (hname : ∀ n, name ≠ "$__" ++ n) : w.types.findField? t.id name = w.types.findField? base.id name := by
  have hnone : (b.fields.find? (·.name == name)) = none := by
    rw [hbuilt.fields, List.find?_eq_none]
    intro f hf hfound
    obtain ⟨q, -, rfl⟩ := List.mem_map.1 hf
    exact hname q.name (beq_iff_eq.1 hfound).symm
  rw [TypeTable.findField?, h.lineage_of_class hclass, List.flatMap_cons, List.flatMap_cons, hbuilt.fields_proxy,
    List.nil_append, List.find?_append, hnone, Option.none_or, TypeTable.findField?]

/-- Objects of a subtype of a class have a value for each field of the class. -/
theorem exists_field_of_class {s : ObjectState} (hcls : s.cls = t.id) (hfurnished : s.Furnished w.types)
    (hname : ∃ f ∈ (w.types.lineage base.id).flatMap (·.fields), f.name = name) :
    ∃ f v, w.types.findField? t.id name = some f ∧ s.fields.find? (·.1 == name) = some (name, v) := by
  obtain ⟨f, hf, hname⟩ := hname
  have hmem : f ∈ (w.types.lineage t.id).flatMap (·.fields) := by
    rw [h.lineage_of_class hclass, List.flatMap_cons, List.flatMap_cons]
    exact List.mem_append_right _ (List.mem_append_right _ hf)
  obtain ⟨g, -, hfound, -⟩ := exists_find?_of_mem (q := fun f : Field => f.name == name) hmem (beq_iff_eq.2 hname)
  obtain ⟨v, hv⟩ := hfurnished.exists_field ⟨f, hcls ▸ hmem, hname⟩
  exact ⟨g, v, hfound, hv⟩

end World.Stands

/-! ## Properties after any course of events -/

namespace World

variable {w w₁ w' : World} {p : PlatformId} {script : ScriptType} {params : List ValueType} {args : List Value}
  {id : InstanceId} {o : ObjectRef} {steps depth : Nat}

/-- After a course of events a new script object has its views still, and its other properties are what they were set
to last. -/
theorem New.after {asked : List Request} (hnew : w.New p script id o) (hcourse : w.Course asked w') (name : String) :
    ∃ properties, w'.instances[id.index]? = some ⟨script, o, p, properties⟩ ∧
      (script.Views w.types name → (Instance.mk script o p properties).property? name = some .live) ∧
      (¬script.Views w.types name → (Instance.mk script o p properties).property? name =
        (asked.filterMap (·.sets? id name)).getLast?.map .held) := by
  have hinstance := hcourse.follows id _ hnew.instance
  obtain ⟨properties, hafter⟩ : ∃ properties,
      (Instance.mk script o p (script.liveProperties w.types)).after id asked = ⟨script, o, p, properties⟩ :=
    Instance.exists_properties_after asked
  have hproperty : ((Instance.mk script o p (script.liveProperties w.types)).after id asked).property? name = _ :=
    Instance.property?_after asked
  rw [hafter] at hinstance hproperty
  refine ⟨properties, hinstance, ?_⟩
  have hfirst : _ ∧ script.Views w.types name ∨ _ ∧ ¬script.Views w.types name :=
    ScriptType.property?_liveProperties o p
  rcases hfirst with ⟨hlive, hviews⟩ | ⟨hnone, hviews⟩
  · exact ⟨fun _ => by rw [hproperty, if_pos hlive], fun hno => absurd hviews hno⟩
  · refine ⟨fun hyes => absurd hyes hviews, fun _ => ?_⟩
    rw [hproperty, hnone, if_neg nofun, Option.or_none]

/-- After a course of events the bridge of a new script object is an object of the bridge's class still. -/
theorem New.bridge_after {asked : List Request} (hnew : w.New p script id o) (hcourse : w.Course asked w') :
    ∃ s, w'.objects[o.index]? = some s ∧ s.cls = o.cls := by
  obtain ⟨s, hobject, hcls⟩ := hnew.bridge
  obtain ⟨s', hobject', hbecomes⟩ := hcourse.later.objects _ s hobject
  exact ⟨s', hobject', hbecomes.cls.trans hcls⟩

/-- **Live properties.** Whatever happens after a script object was made in a sane world, a name that is a field of the
class chain of its base, not static and not hidden by a function of its script, is a view of the field of the bridge. If
the base is a class, there is this field: the property has a value, and the field is the one that the name stands for on
the base, unless it is the name of a generated field. Every other name is a property of the script object's own. -/
theorem properties_of_extend (hs : w.Sane) (hfurnished : w.Furnished) (hp : p.index < w.platforms.size)
    (hdeclared : script.Declared w.types)
    (h : (exec steps depth).extend p script params args w = (.ok (.ok id), w₁)) :
    ∃ o base, (∃ i, w₁.instances[id.index]? = some i ∧ i.script = script ∧ i.bridge = o) ∧
      w.types.lookup? script.base = some base ∧
      ∀ asked w', w₁.Course asked w' → ∀ name,
        (script.Views w.types name → w'.ViewsField id o name ∧
          (base.isInterface = false → ∃ f v, w'.types.findField? o.cls name = some f ∧
            getProperty id name w' = (.ok v, w') ∧
            ((∀ n, name ≠ "$__" ++ n) → w.types.findField? script.base name = some f))) ∧
        (¬script.Views w.types name →
          w'.OwnsProperty id script name (asked.filterMap (·.sets? id name)).getLast?) := by
  have hknown : script.base.index < w.types.length := hdeclared _ List.mem_cons_self
  obtain ⟨base, hbase⟩ := hs.numbered.exists_lookup? hknown
  obtain ⟨-, hid⟩ := TypeTable.mem_of_lookup? hbase
  obtain ⟨proxy, w₂, hcreated, hmade⟩ := Runner.created_of_extend h
  rw [← hid] at hcreated
  obtain ⟨e, older, w₀, interfaces', properties', pairs, b, t, rfl, -, ha⟩ :=
    provides_of_createExtensionType hs hp (hid ▸ hdeclared) (hid ▸ hbase) hcreated
  obtain ⟨hlater₁, -⟩ := Runner.made_of_extend hs hp hdeclared h
  obtain ⟨o, hcls, hnew⟩ := exists_new_of_createInstance hmade
  refine ⟨o, base, ⟨_, hnew.instance, rfl, rfl⟩, hbase, fun asked w' hcourse name => ?_⟩
  have hs₁ := hlater₁.sane hs
  have hs' := hcourse.later.sane hs₁
  have hfurnished₁ := furnished_extend hs hfurnished hdeclared steps depth p params args
  rw [h] at hfurnished₁
  have hfurnished' := hcourse.furnished hs₁ hfurnished₁
  -- the types that were there when the script object was made are there, and so is the class of the bridge
  obtain ⟨made, htypes₁⟩ := hlater₁.types
  obtain ⟨added, htypes'⟩ := (hlater₁.trans hcourse.later).types
  have hnumbered₁ : TypeTable.Numbered (made ++ w.types) := htypes₁ ▸ hs₁.numbered
  have hnumbered' : TypeTable.Numbered (added ++ w.types) := htypes' ▸ hs'.numbered
  have hstands : w'.Stands e older w₀ base interfaces' properties' b t :=
    ha.stands.later ((Runner.later_createInstance hmade).trans hcourse.later).types hs'.numbered
  have hviews : script.Views w₁.types name ↔ script.Views w.types name := by
    rw [← htypes₁]
    exact ScriptType.views_append hnumbered₁ hknown
  obtain ⟨s, hobject, hclass⟩ := hnew.bridge_after hcourse
  obtain ⟨properties, hinstance, hlive, hown⟩ := hnew.after hcourse name
  rw [hviews] at hlive hown
  refine ⟨fun hview => ?_, fun hview => ownsProperty_of_not_live hinstance (hown hview)⟩
  have hviewed := viewsField_of_live hinstance (hlive hview) hobject hclass (hfurnished' _ _ hobject)
  refine ⟨hviewed, fun hbaseClass => ?_⟩
  have hdeclares : ∃ f ∈ (w'.types.lineage base.id).flatMap (·.fields), f.name = name := by
    rw [hid, ← htypes', TypeTable.lineage_append fun _ => hnumbered'.ne_of_mem hknown]
    obtain ⟨-, f, hf, -, hname⟩ := hview
    exact ⟨f, hf, hname⟩
  obtain ⟨f, v, hfound, hvalue⟩ :=
    hstands.exists_field_of_class hbaseClass (hclass.trans hcls) (hfurnished' _ _ hobject) hdeclares
  refine ⟨f, v, hcls ▸ hfound, ?_, fun hgenerated => ?_⟩
  · rw [hviewed.read, getField_apply, fieldsOf, hobject, hvalue]
  · rw [hstands.findField?_of_class hbaseClass ha.built hgenerated, hid, ← htypes',
      hnumbered'.findField?_append hknown] at hfound
    exact hfound

end World

/-! ## A class with a field, and an interface with it -/

/-- A class with a field and a constructor. -/
def tank : HostType :=
  { gauge [] with
    fields := [⟨"level", .primitive .int, .public⟩]
    constructors := [⟨[], .public, "Gauge", .inherited none⟩] }

/-- An interface with the field. -/
def tankFace : HostType :=
  { tank with kind := .iface, superclass := none, constructors := [] }

/-- A script type that extends one of them and defines nothing. -/
def tankScript (t : HostType) : ScriptType :=
  TypeTable.extendScript (t :: TypeTable.initial) "Script" t.id [] [] []

/-- The world with one of them, whose platform does not verify what it generates. -/
def tankWorld (t : HostType) : World :=
  { World.initial { verifyCode := false } with types := t :: TypeTable.initial }

namespace World

/-- Whether the script object is made with a view of the field, which its bridge lacks if an interface has it. -/
def HasTank (t : HostType) (w : World) : Prop :=
  (w.extendBy (tankScript t)).1 = .ok (.ok ⟨0⟩) ∧
  (w.extendBy (tankScript t)).2.instances[0]?.map (fun i => (i.bridge, i.property? "level")) =
    some (valveObject, some .live) ∧
  ((w.extendBy (tankScript t)).2.types.findField?
    ((w.extendBy (tankScript t)).2.allocatedAs valveObject) "level").isNone = t.isInterface

instance (t : HostType) : DecidablePred (HasTank t) := fun _ => inferInstanceAs (Decidable (_ ∧ _))

/-- The script object is made in the worlds with the class and with the interface. -/
theorem exists_hasTank {t : HostType} (h : t = tank ∨ t = tankFace) : ∃ w : World, w.HasTank t ∧
    (exec 30 6).extend .first (tankScript t) [] [] (tankWorld t) = (.ok (.ok ⟨0⟩), (w.extendBy (tankScript t)).2) := by
  have hgenerate : ∃ w : World, generate ⟨.weave, false⟩ t.id [] [] .system (some ⟨0⟩) (tankWorld t) =
      (.ok ⟨4⟩, w) ∧ w.HasTank t := by
    rcases h with rfl | rfl
    all_goals
      apply exists_generate (P := HasTank _)
      · rfl
      · rfl
      · rw [TypeTable.harvestAbstract, TypeTable.harvest, TypeTable.interfaceList, TypeTable.extendFound]
        rfl
      · rfl
      · exact TypeTable.harvest_singleton rfl rfl rfl
      · apply exists_eq_ok_of_decide (P := fun w : World => HasTank _ { w with installed := _ })
        decide +kernel
      · rfl
  obtain ⟨w, hw, h⟩ := hgenerate
  refine ⟨w, h, ?_⟩
  rw [← h.1]
  exact Runner.extend_apply_of_generate rfl rfl rfl hw

/-- The field of the class is a view, and reads what it was set to. A property of another name is there once it is
set. -/
theorem properties_of_extend_tank : ∃ w w₁ w₂,
    (exec 30 6).extend .first (tankScript tank) [] [] (tankWorld tank) = (.ok (.ok ⟨0⟩), w) ∧
    setProperty ⟨0⟩ "level" (.prim (.int 5)) w = (.ok (), w₁) ∧
    getProperty ⟨0⟩ "level" w₁ = (.ok (.prim (.int 5)), w₁) ∧
    setProperty ⟨0⟩ "name" (.str "full") w₁ = (.ok (), w₂) ∧
    getProperty ⟨0⟩ "name" w₂ = (.ok (.str "full"), w₂) := by
  obtain ⟨w, hextend⟩ : ∃ w,
      (exec 30 6).extend .first (tankScript tank) [] [] (tankWorld tank) = (.ok (.ok ⟨0⟩), w) :=
    (exists_hasTank (.inl rfl)).elim fun _ h => ⟨_, h.2⟩
  have hs : (tankWorld tank).Sane := sane_of_types _ (numbered_gauge []) ⟨[tank], rfl⟩
  have hdeclared : (tankScript tank).Declared (tankWorld tank).types :=
    List.forall_mem_singleton.2 (by decide)
  obtain ⟨o, base, -, hbase, hproperties⟩ :=
    properties_of_extend hs (furnished_of_empty rfl) (by decide) hdeclared hextend
  obtain rfl : tank = base := Option.some.inj hbase
  have hlevel : (tankScript tank).Views (tankWorld tank).types "level" :=
    ⟨rfl, ⟨"level", .primitive .int, .public⟩, List.mem_cons_self, rfl, rfl⟩
  have hname : ¬(tankScript tank).Views (tankWorld tank).types "name" := by
    rintro ⟨-, f, hf, -, hname⟩
    obtain rfl : f = ⟨"level", .primitive .int, .public⟩ := List.mem_singleton.1 hf
    exact absurd hname (by decide)
  have hgenerated (n : String) : "level" ≠ "$__" ++ n := fun h => by
    have hfirst := congrArg (fun s : String => s.toList.head?) h
    simp at hfirst
  obtain ⟨hview, hfield⟩ := (hproperties _ _ .start "level").1 hlevel
  obtain ⟨f, -, hfound, -, hsame⟩ := hfield rfl
  obtain rfl : ⟨"level", .primitive .int, .public⟩ = f := Option.some.inj (hsame hgenerated)
  -- the field accepts the value, so that it is not refused
  rcases hset : setProperty ⟨0⟩ "level" (.prim (.int 5)) w with ⟨e | ⟨⟩, w₁⟩
  · exact absurd ⟨_, hfound, rfl⟩ ((hview.refused (.prim (.int 5))).1 ⟨e, congrArg Prod.fst hset⟩)
  have hcourse : w.Course _ w₁ := Course.start.setProperty hset
  have hown := (hproperties _ _ hcourse "name").2 hname
  rcases hnamed : setProperty ⟨0⟩ "name" (.str "full") w₁ with ⟨e | ⟨⟩, w₂⟩
  · exact absurd ((congrArg Prod.fst hnamed).symm.trans (hown.write (.str "full")).1) nofun
  exact ⟨w, w₁, w₂, hextend, hset, hview.stored _ _ hset, hnamed,
    ((hproperties _ _ (hcourse.setProperty hnamed) "name").2 hname).read⟩

/-- The field of the interface is a view as well, but the bridge does not have it, and a value that the field accepts is
refused. -/
theorem properties_of_extend_differs : ∃ w,
    (exec 30 6).extend .first (tankScript tankFace) [] [] (tankWorld tankFace) = (.ok (.ok ⟨0⟩), w) ∧
    (tankScript tankFace).Views (tankWorld tankFace).types "level" ∧
    (∃ f, (tankWorld tankFace).types.findField? tankFace.id "level" = some f ∧
      (tankWorld tankFace).types.accepts f.type (.prim (.int 5)) = true) ∧
    setProperty ⟨0⟩ "level" (.prim (.int 5)) w = (.error (.raised (w.noSuchField valveObject "level")), w) := by
  obtain ⟨w, ⟨-, hview, hlacks⟩, hextend⟩ := exists_hasTank (.inr rfl)
  refine ⟨_, hextend, ⟨rfl, ⟨"level", .primitive .int, .public⟩, List.mem_cons_self, rfl, rfl⟩, ⟨_, rfl, rfl⟩, ?_⟩
  obtain ⟨i, hi, hproperty⟩ := Option.map_eq_some_iff.1 hview
  obtain ⟨hbridge, hlive⟩ := Prod.mk.inj hproperty
  have hinstance : (w.extendBy (tankScript tankFace)).2.instances[(⟨0⟩ : InstanceId).index]? = some i := hi
  rw [setProperty_apply hinstance, if_pos hlive, hbridge, setField_apply, Option.isNone_iff_eq_none.1 hlacks]

end World

end Interpose

import Interpose.Generate.Layers
import Interpose.Proofs.Actions
import Mathlib.Data.List.Forall2

/-!
# What definitions add

A definition that succeeds adds one type and, for a generated type, one array with the numbers of its
operations. Its methods are those of the definition, in order, each with the body that the back-end
makes of its code. The methods of a proxy are a thunk and an accessor for each operation, in turn.
-/

namespace Interpose

/-! ## Chains of checks -/

section Except

variable {ε α β : Type}

theorem bind_eq_ok {x : Except ε α} {f : α → Except ε β} {b : β} :
    x >>= f = .ok b ↔ ∃ a, x = .ok a ∧ f a = .ok b := by
  cases x <;> simp [bind, Except.bind]

theorem pure_eq_ok {a b : α} : (pure a : Except ε α) = .ok b ↔ a = b := by
  simp [pure, Except.pure]

theorem map_eq_ok {x : Except ε α} {f : α → β} {b : β} :
    x.map f = .ok b ↔ ∃ a, x = .ok a ∧ f a = b := by
  cases x <;> simp [Except.map]

/-- What succeeds for a whole list succeeds for each item. -/
theorem forall₂_of_mapM {f : α → Except ε β} {l : List α} {l' : List β} (h : l.mapM f = .ok l') :
    List.Forall₂ (fun a b => f a = .ok b) l l' := by
  induction l generalizing l' with
  | nil =>
      cases h
      exact .nil
  | cons a l ih =>
      rw [List.mapM_cons, bind_eq_ok] at h
      obtain ⟨b, hb, h⟩ := h
      rw [bind_eq_ok] at h
      obtain ⟨rest, hrest, h⟩ := h
      rw [pure_eq_ok] at h
      exact h ▸ .cons hb (ih hrest)

theorem getElem?_of_forall₂ {R : α → β → Prop} {l : List α} {l' : List β} (h : List.Forall₂ R l l')
    {i : Nat} {a : α} (ha : l[i]? = some a) : ∃ b, l'[i]? = some b ∧ R a b := by
  induction h generalizing i with
  | nil => cases ha
  | cons hab _ ih =>
      cases i with
      | zero =>
          cases ha
          exact ⟨_, rfl, hab⟩
      | succ i => exact ih ha

/-- What is related to an item of the second list is in the first. -/
theorem exists_of_forall₂ {R : α → β → Prop} {l : List α} {l' : List β} (h : List.Forall₂ R l l') {b : β}
    (hb : b ∈ l') : ∃ a ∈ l, R a b := by
  obtain ⟨k, hk⟩ := List.getElem?_of_mem hb
  obtain ⟨a, ha, hR⟩ := getElem?_of_forall₂ h.flip hk
  exact ⟨a, List.mem_of_getElem? ha, hR⟩

theorem forall₂_trans {γ : Type} {R : α → β → Prop} {S : β → γ → Prop} {l : List α} {l' : List β}
    {l'' : List γ} (h : List.Forall₂ R l l') (h' : List.Forall₂ S l' l'') :
    List.Forall₂ (fun a c => ∃ b, R a b ∧ S b c) l l'' := by
  induction h generalizing l'' with
  | nil =>
      cases h'
      exact .nil
  | cons hR _ ih =>
      cases h' with
      | cons hS hrest => exact .cons ⟨_, hR, hS⟩ (ih hrest)

/-- What is found first in a list corresponds to what is found first in another one, item by item. -/
theorem find?_of_forall₂ {R : α → β → Prop} {p : α → Bool} {q : β → Bool} {l : List α} {l' : List β}
    (h : List.Forall₂ R l l') (hsame : ∀ a b, R a b → p a = q b) :
    (l.find? p = none → l'.find? q = none) ∧ ∀ a, l.find? p = some a → ∃ b, l'.find? q = some b ∧ R a b := by
  induction h with
  | nil => exact ⟨fun _ => rfl, nofun⟩
  | @cons a b l l' hab _ ih =>
      rw [List.find?_cons, List.find?_cons, ← hsame a b hab]
      cases p a with
      | true => exact ⟨nofun, fun _ ha => ⟨b, rfl, Option.some.inj ha ▸ hab⟩⟩
      | false => exact ih

/-- What succeeds for each item of a list succeeds for the list. -/
theorem mapM_eq_ok {f : α → Except ε β} {l : List α} {l' : List β} :
    l.mapM f = .ok l' ↔ List.Forall₂ (fun a b => f a = .ok b) l l' := by
  refine ⟨forall₂_of_mapM, fun h => ?_⟩
  induction h with
  | nil => rfl
  | cons hab _ ih =>
      rw [List.mapM_cons, bind_eq_ok]
      exact ⟨_, hab, bind_eq_ok.2 ⟨_, ih, rfl⟩⟩

theorem exists_bind {x : Except ε α} {f : α → Except ε β} {a : α} (hx : x = .ok a)
    (hf : ∃ b, f a = .ok b) : ∃ b, x >>= f = .ok b := by
  obtain ⟨b, hb⟩ := hf
  exact ⟨b, bind_eq_ok.2 ⟨a, hx, hb⟩⟩

theorem exists_mapM {f : α → Except ε β} {l : List α} (hf : ∀ a ∈ l, ∃ b, f a = .ok b) :
    ∃ l', l.mapM f = .ok l' := by
  induction l with
  | nil => exact ⟨[], rfl⟩
  | cons a l ih =>
      obtain ⟨⟨b, hb⟩, hl⟩ := List.forall_mem_cons.1 hf
      obtain ⟨l', hl'⟩ := ih hl
      exact ⟨b :: l', mapM_eq_ok.2 (.cons hb (forall₂_of_mapM hl'))⟩

end Except

/-! ## Definitions -/

namespace ClassDef

/-- Methods of which none is refused as a duplicate have different slots. -/
theorem nodup_of_duplicate? {methods : List MethodDef} {seen : List Slot}
    (h : duplicate? methods seen = none) :
    (methods.map (·.slot)).Nodup ∧ ∀ m ∈ methods, m.slot ∉ seen := by
  induction methods generalizing seen with
  | nil => exact ⟨List.nodup_nil, fun m hm => by cases hm⟩
  | cons m methods ih =>
      rw [duplicate?] at h
      split at h
      · cases h
      · rename_i hnew
        rw [List.contains_iff_mem] at hnew
        obtain ⟨hnodup, hrest⟩ := ih h
        refine ⟨List.nodup_cons.2 ⟨fun hm => ?_, hnodup⟩, fun n hn => ?_⟩
        · obtain ⟨n, hn, hslot⟩ := List.mem_map.1 hm
          exact hrest n hn (hslot ▸ List.mem_cons_self)
        · rcases List.mem_cons.1 hn with rfl | hn
          · exact hnew
          · exact fun hseen => hrest n hn (List.mem_cons_of_mem _ hseen)

/-- The methods of a definition that passes the checks have different slots. -/
theorem nodup_of_validate {types : TypeTable} {d : ClassDef} (h : d.validate types = .ok ()) :
    (d.methods.map (·.slot)).Nodup := by
  rw [validate] at h
  split at h
  · cases h
  split at h
  · cases h
  split at h
  · cases h
  · rename_i hnone
    exact (nodup_of_duplicate? hnone).1

end ClassDef

namespace Emitter

variable {e : Emitter} {w w' : World} {id : TypeId} {d : ClassDef} {loader : Loader}

/-- What a method and its definition have in common. -/
theorem method_eq_ok {owner : TypeId} {name : String} {def_ : MethodDef} {m : Method} :
    e.method owner name def_ = .ok m ↔ ∃ unit, e.body owner def_.code = .ok unit ∧
      m = ⟨def_.name, def_.params, def_.returns, def_.modifiers, name, owner, .compiled unit⟩ := by
  rw [method, map_eq_ok]
  exact exists_congr fun unit => and_congr_right fun _ => eq_comm

/-- Defining methods keeps their slots. -/
theorem slots_of_forall₂ {owner : TypeId} {name : String} {defs : List MethodDef}
    {methods : List Method} (h : List.Forall₂ (fun m m' => e.method owner name m = .ok m') defs methods) :
    methods.map (·.slot) = defs.map (·.slot) := by
  induction h with
  | nil => rfl
  | cons hm _ ih =>
      obtain ⟨_, -, rfl⟩ := method_eq_ok.1 hm
      rw [List.map_cons, List.map_cons, ih]
      rfl

/-- A definition that succeeds was checked, and adds a type under a new identity. -/
theorem define_eq_ok (h : e.define w d loader = .ok (id, w')) :
    d.validate w.types = .ok () ∧ (e.verify = true → ClassDef.verifyAll d.codes = .ok ()) ∧
      id = w.types.fresh ∧
      ∃ ctors methods,
        List.Forall₂ (fun c c' => e.ctor id d.name c = .ok c') d.ctors ctors ∧
        List.Forall₂ (fun m m' => e.method id d.name m = .ok m') d.methods methods ∧
        w' = { (record w d.generated).2 with
          types := ⟨id, d.name, .cls, d.modifiers, some d.superclass, d.interfaces, methods, ctors,
            d.fields, loader, (record w d.generated).1⟩ :: (record w d.generated).2.types } := by
  rw [define, bind_eq_ok] at h
  obtain ⟨_, hvalid, h⟩ := h
  -- verification, if there is any, comes between the check and what is made
  have hrest : (e.verify = true → ClassDef.verifyAll d.codes = .ok ()) ∧
      (do
        let id := w.types.fresh
        let ctors ← d.ctors.mapM (e.ctor id d.name)
        let methods ← d.methods.mapM (e.method id d.name)
        let t : HostType :=
          ⟨id, d.name, .cls, d.modifiers, some d.superclass, d.interfaces, methods, ctors, d.fields,
            loader, (record w d.generated).1⟩
        return (id, { (record w d.generated).2 with types := t :: (record w d.generated).2.types })) =
        (Except.ok (id, w') : Except EmitError (TypeId × World)) := by
    by_cases hverify : e.verify = true
    · rw [if_pos hverify, bind_eq_ok] at h
      obtain ⟨_, hall, h⟩ := h
      exact ⟨fun _ => hall, h⟩
    · rw [if_neg hverify] at h
      exact ⟨fun hv => (hverify hv).elim, h⟩
  obtain ⟨hverified, h⟩ := hrest
  rw [bind_eq_ok] at h
  obtain ⟨ctors, hctors, h⟩ := h
  rw [bind_eq_ok] at h
  obtain ⟨methods, hmethods, h⟩ := h
  cases h
  exact ⟨hvalid, hverified, rfl, ctors, methods, forall₂_of_mapM hctors, forall₂_of_mapM hmethods,
    rfl⟩

end Emitter

/-! ## Proxies -/

/-- Taking modifiers away leaves the others. -/
theorem Modifiers.contains_without {m a b : Modifiers} (h : ~~~a.bits &&& b.bits = b.bits) :
    (m.without a).contains b = m.contains b := by
  rw [contains, contains, without, UInt16.and_assoc, h]

namespace Layer

variable {owner : String} {op : Method} {target : Option Method}

/-- Redefining an operation does not change whether calls can reach it. -/
theorem isVirtual_of_modifiers {m : Method} (h : m.modifiers = overrideModifiers op) :
    m.isVirtual = op.isVirtual := by
  rw [Method.isVirtual, Method.isVirtual, h, overrideModifiers, Modifiers.isStatic, Modifiers.isPrivate,
    Modifiers.contains_without (by decide), Modifiers.contains_without (by decide)]
  rfl

/-- The code of the accessor to what an operation overrides. -/
def accessorBuilder (owner : String) (op : Method) (target : Option Method) : CodeBuilder :=
  goUp (CodeBuilder.start (bodyName owner (Naming.accessor op.name op.returns) op.params op.returns)
    op.params.length) op target

theorem thunk_eq_ok {index : Nat} {m : MethodDef} :
    thunk owner index op target = .ok m ↔ ∃ code, thunkCode owner index op target = .ok code ∧
      m = ⟨op.name, op.params, op.returns, overrideModifiers op, code⟩ := by
  rw [thunk, bind_eq_ok]
  exact exists_congr fun code => and_congr_right fun _ => pure_eq_ok.trans eq_comm

theorem accessor_eq_ok {m : MethodDef} :
    accessor owner op target = .ok m ↔ ∃ code, (accessorBuilder owner op target).finish = .ok code ∧
      m = ⟨Naming.accessor op.name op.returns, op.params, op.returns, ownModifiers, code⟩ := by
  rw [accessor, bind_eq_ok]
  exact exists_congr fun code => and_congr_right fun _ => pure_eq_ok.trans eq_comm

/-- A proxy has a thunk and an accessor for each operation, in turn. -/
theorem getElem?_proxyMethods {types : TypeTable} {bridge : TypeId} {k : Nat} {ops : List Method}
    {methods : List MethodDef} (h : proxyMethods types owner bridge k ops = .ok methods) {i : Nat}
    (hi : ops[i]? = some op) :
    ∃ dispatching upward, methods[2 * i]? = some dispatching ∧ methods[2 * i + 1]? = some upward ∧
      thunk owner (k + i) op (superTarget? types bridge op) = .ok dispatching ∧
      accessor owner op (superTarget? types bridge op) = .ok upward := by
  induction ops generalizing k i methods with
  | nil => cases hi
  | cons op' ops ih =>
      rw [proxyMethods, bind_eq_ok] at h
      obtain ⟨dispatching, hdispatching, h⟩ := h
      rw [bind_eq_ok] at h
      obtain ⟨upward, hupward, h⟩ := h
      rw [bind_eq_ok] at h
      obtain ⟨rest, hrest, h⟩ := h
      rw [pure_eq_ok] at h
      subst h
      cases i with
      | zero =>
          cases hi
          exact ⟨dispatching, upward, rfl, rfl, hdispatching, hupward⟩
      | succ i =>
          obtain ⟨dispatching', upward', hd, hu, hthunk, haccessor⟩ := ih hrest hi
          rw [Nat.add_right_comm, Nat.add_assoc] at hthunk
          exact ⟨dispatching', upward', hd, hu, hthunk, haccessor⟩

/-- A proxy has two methods for each operation, and no more. -/
theorem length_proxyMethods {types : TypeTable} {bridge : TypeId} {k : Nat} {ops : List Method}
    {methods : List MethodDef} (h : proxyMethods types owner bridge k ops = .ok methods) :
    methods.length = 2 * ops.length := by
  induction ops generalizing k methods with
  | nil =>
      cases h
      rfl
  | cons op ops ih =>
      rw [proxyMethods, bind_eq_ok] at h
      obtain ⟨dispatching, -, h⟩ := h
      rw [bind_eq_ok] at h
      obtain ⟨upward, -, h⟩ := h
      rw [bind_eq_ok] at h
      obtain ⟨rest, hrest, h⟩ := h
      rw [pure_eq_ok] at h
      rw [← h, List.length_cons, List.length_cons, ih hrest, List.length_cons]
      omega

end Layer

/-- What the proxy on a bridge is: a type below the bridge that keeps its operations, and has for each
of them a thunk and an accessor under slots of their own, whose bodies are made of their code. -/
structure Emitter.Proxy (e : Emitter) (w : World) (bridge base : HostType) (operations : List Method)
    (requested : List TypeId) (t : HostType) : Prop where
  id : t.id = w.types.fresh
  name : t.name = Naming.layer base.name .proxy
  superclass : t.superclass = some bridge.id
  interfaces : t.interfaces = requested ++ [TypeId.capability]
  generated : t.generated = some ⟨.proxy, base.id, operations, requested, ⟨w.arrays.size⟩⟩
  slots : (t.methods.map (·.slot)).Nodup
  length : t.methods.length = 2 * operations.length
  dispatching : ∀ {i : Nat} {op : Method}, operations[i]? = some op → ∃ code unit,
    Layer.thunkCode t.name i op (Layer.superTarget? w.types bridge.id op) = .ok code ∧
    e.body t.id code = .ok unit ∧ t.methods[2 * i]? = some ⟨op.name, op.params, op.returns,
      Layer.overrideModifiers op, t.name, t.id, .compiled unit⟩
  upward : ∀ {i : Nat} {op : Method}, operations[i]? = some op → ∃ code unit,
    (Layer.accessorBuilder t.name op (Layer.superTarget? w.types bridge.id op)).finish = .ok code ∧
    e.body t.id code = .ok unit ∧ t.methods[2 * i + 1]? = some ⟨Naming.accessor op.name op.returns,
      op.params, op.returns, Layer.ownModifiers, t.name, t.id, .compiled unit⟩

/-- Defining a proxy adds it, and the array with the numbers of its operations. -/
theorem Emitter.proxy_eq_ok {e : Emitter} {w w' : World} {bridge base : HostType}
    {operations : List Method} {requested : List TypeId} {loader : Loader} {id : TypeId}
    (h : e.proxy w bridge base operations requested loader = .ok (id, w')) :
    ∃ t, e.Proxy w bridge base operations requested t ∧ id = t.id ∧
      w' = { w with
        types := t :: w.types
        arrays := w.arrays.push ((Array.range operations.length).map .operation) } := by
  rw [Emitter.proxy, bind_eq_ok] at h
  obtain ⟨d, hd, h⟩ := h
  rw [Layer.proxyDef, bind_eq_ok] at hd
  obtain ⟨defs, hdefs, hd⟩ := hd
  rw [bind_eq_ok] at hd
  obtain ⟨ctors, _, hd⟩ := hd
  rw [pure_eq_ok] at hd
  subst hd
  obtain ⟨hvalid, -, hid, ctors', methods, -, hmethods, hw⟩ := define_eq_ok h
  refine ⟨_, ⟨hid, rfl, rfl, rfl, rfl, ?_, ?_, fun {i op} hi => ?_, fun {i op} hi => ?_⟩, rfl, hw⟩
  · exact slots_of_forall₂ hmethods ▸ ClassDef.nodup_of_validate hvalid
  · exact hmethods.length_eq.symm.trans (Layer.length_proxyMethods hdefs)
  all_goals
    obtain ⟨dispatching, upward, hdispatching, hupward, hthunk, haccessor⟩ :=
      Layer.getElem?_proxyMethods hdefs hi
  · rw [Nat.zero_add, Layer.thunk_eq_ok] at hthunk
    obtain ⟨code, hcode, rfl⟩ := hthunk
    obtain ⟨m, hm, hmade⟩ := getElem?_of_forall₂ hmethods hdispatching
    obtain ⟨unit, hunit, rfl⟩ := method_eq_ok.1 hmade
    exact ⟨code, unit, hcode, hunit, hm⟩
  · rw [Layer.accessor_eq_ok] at haccessor
    obtain ⟨code, hcode, rfl⟩ := haccessor
    obtain ⟨m, hm, hmade⟩ := getElem?_of_forall₂ hmethods hupward
    obtain ⟨unit, hunit, rfl⟩ := method_eq_ok.1 hmade
    exact ⟨code, unit, hcode, hunit, hm⟩

end Interpose

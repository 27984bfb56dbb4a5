import Interpose.Host.Hierarchy

/-!
# Interception

Which operations of a hierarchy a dispatching layer takes over. `intercept` folds the declarations
in the order in which they are met; `interfaceList` lists the interfaces to look at with an
explicit stack, and ends because every type it adds is one less to find.
-/

namespace Interpose

/-- An operation is never taken over when it is the teardown hook. -/
def teardownName : String := "finalize"

namespace Method

/-- Whether a dispatching layer may take over an operation that is not final. -/
def isInterceptable (m : Method) : Bool :=
  !m.modifiers.isStatic && (m.modifiers.isPublic || m.modifiers.isProtected) &&
    !(m.name == teardownName && m.params.isEmpty)

end Method

/-- What a walk over declarations has gathered: the operations to take over, in the order of their
slots, and the slots that a final operation closed. -/
structure Gathering where
  found : List Method
  closed : List Slot

namespace Gathering

/-- Puts an operation in its place unless its slot is already there. -/
def insert (m : Method) : List Method → List Method
  | [] => [m]
  | n :: rest =>
    match compare m.slot n.slot with
    | .lt => m :: n :: rest
    | .eq => n :: rest
    | .gt => n :: insert m rest

/-- Takes one declaration into account. -/
def add (g : Gathering) (m : Method) : Gathering :=
  if m.modifiers.isFinal then
    ⟨g.found.filter fun n => !n.occupies m.slot, m.slot :: g.closed⟩
  else if m.isInterceptable && !g.closed.contains m.slot then ⟨insert m g.found, g.closed⟩
  else g

end Gathering

/-- The operations to take over among those declared by a list of types, in the order of their
slots. The first declaration of a slot stands for it, and a final one anywhere excludes it. -/
def intercept (sources : List HostType) : List Method :=
  ((sources.flatMap (·.methods)).foldl Gathering.add ⟨[], []⟩).found

/-- The position of a slot in an operation table. -/
def indexOf? (operations : List Method) (s : Slot) : Option Nat :=
  operations.findIdx? (·.occupies s)

namespace TypeTable

/-- How many types are not among those found. -/
def remaining (types : TypeTable) (found : List HostType) : Nat :=
  types.countP fun t => !found.any (·.id == t.id)

theorem remaining_append_le (types : TypeTable) (found : List HostType) (t : HostType) :
    remaining types (found ++ [t]) ≤ remaining types found := by
  unfold remaining
  apply List.countP_mono_left
  intro u _ hu
  simp_all

theorem remaining_append_lt {types : TypeTable} {found : List HostType} {t : HostType}
    (ht : t ∈ types) (hnew : found.any (·.id == t.id) = false) :
    remaining types (found ++ [t]) < remaining types found := by
  induction types with
  | nil => cases ht
  | cons u rest ih =>
    have hle := remaining_append_le rest found t
    unfold remaining at hle ih ⊢
    rw [List.countP_cons, List.countP_cons]
    rcases List.mem_cons.1 ht with rfl | hrest
    · have h1 : (found ++ [t]).any (·.id == t.id) = true := by simp
      rw [h1, hnew]
      simp only [Bool.not_true, Bool.not_false, if_true]
      have : (false = true) = False := by simp
      simp only [this, if_false]
      omega
    · have hlt := ih hrest
      by_cases hu : (!(found ++ [t]).any (·.id == u.id)) = true
      · have hu' : (!found.any (·.id == u.id)) = true := by simp_all
        rw [if_pos hu, if_pos hu']
        omega
      · rw [if_neg hu]
        omega

/-- Adds the types that wait on a stack, and those that they extend, to the ones found. -/
def extendFound (types : TypeTable) (stack : List TypeId) (found : List HostType) :
    List HostType :=
  match stack with
  | [] => found
  | id :: rest =>
    match _h : types.lookup? id with
    | none => extendFound types rest found
    | some t =>
      if _hseen : found.any (·.id == t.id) then extendFound types rest found
      else extendFound types (t.interfaces ++ rest) (found ++ [t])
termination_by (remaining types found, stack.length)
decreasing_by
  · exact Prod.Lex.right _ (by simp)
  · exact Prod.Lex.right _ (by simp)
  · exact Prod.Lex.left _ _ (remaining_append_lt (List.mem_of_find?_eq_some _h)
      (Bool.eq_false_iff.2 _hseen))

/-- The interfaces of a type, then those of a list with the interfaces that they extend; none is
listed twice. -/
def interfaceList (types : TypeTable) (base : TypeId) (extra : List TypeId) : List HostType :=
  types.extendFound extra (types.allInterfaces base)

/-- The operations that a layer between a type with further interfaces and its objects takes
over. -/
def harvest (types : TypeTable) (base : TypeId) (extra : List TypeId) : List Method :=
  intercept (types.lineage base ++ types.interfaceList base extra)

/-- The operations that a type with further interfaces leaves without a body. -/
def harvestAbstract (types : TypeTable) (base : TypeId) (extra : List TypeId) : List Method :=
  (types.harvest base extra).filter (·.isAbstract)

end TypeTable

end Interpose

import Interpose.Generate.Layers

/-!
# Descriptors tell signatures apart

A type is known from where its descriptor ends: by its letter, or for a name by the semicolon after it.
So the descriptors of parameters can be taken apart one by one up to the parenthesis, whatever comes
after them. The text of an operation and the name of a body end in the descriptor of the signature,
and a descriptor has no dot, so neither of them is that of another signature of the same name.

The texts of constructors are names of bodies for `<init>` without a result. Where the arguments for
some parameters are too many or too few to be converted, no operation is named: the error shows the
descriptor of the parameters without a result, which tells apart the parameters alone.
-/

namespace Interpose

/-! ## Signs that end a text -/

section Signs

variable {c : Char} {l l' s s' : List Char}

/-- What stands before the first sign of a kind, and what stands behind it, are known from the whole. -/
theorem append_cons_inj (hl : c ∉ l) (hl' : c ∉ l') (h : l ++ c :: s = l' ++ c :: s') : l = l' ∧ s = s' := by
  have htake {k : List Char} (hk : c ∉ k) (t : List Char) : (k ++ c :: t).takeWhile (· != c) = k := by
    rw [List.takeWhile_append_of_pos fun d hd => bne_iff_ne.2 (by rintro rfl; exact hk hd)]
    simp
  obtain rfl : l = l' := by rw [← htake hl s, h, htake hl' s']
  exact ⟨rfl, (List.cons.inj (List.append_cancel_left h)).2⟩

/-- So are what stands before the last one and behind it. -/
theorem append_cons_inj_last (hs : c ∉ s) (hs' : c ∉ s') (h : l ++ c :: s = l' ++ c :: s') : l = l' ∧ s = s' := by
  have hreverse : s.reverse ++ c :: l.reverse = s'.reverse ++ c :: l'.reverse := by
    simpa using congrArg List.reverse h
  obtain ⟨hback, hfront⟩ := append_cons_inj (fun hc => hs (List.mem_reverse.1 hc))
    (fun hc => hs' (List.mem_reverse.1 hc)) hreverse
  exact ⟨List.reverse_inj.1 hfront, List.reverse_inj.1 hback⟩

/-- Two texts with the same middle part, which has a sign that is not behind it, are equal in what is before it and
behind it. -/
theorem append_middle_inj {m : List Char} (hm : c ∈ m) (hs : c ∉ s) (hs' : c ∉ s')
    (h : l ++ (m ++ s) = l' ++ (m ++ s')) : l = l' ∧ s = s' := by
  -- the last sign of the kind is the last one in the middle
  obtain ⟨back, front, hsplit, hback⟩ := List.eq_append_cons_of_mem (List.mem_reverse.2 hm)
  obtain rfl : m = front.reverse ++ c :: back.reverse := by
    rw [← List.reverse_reverse m, hsplit]
    simp
  have hnone {t : List Char} (ht : c ∉ t) : c ∉ back.reverse ++ t := by
    rw [List.mem_append, List.mem_reverse]
    exact not_or.2 ⟨hback, ht⟩
  have hlast : (l ++ front.reverse) ++ c :: (back.reverse ++ s) =
      (l' ++ front.reverse) ++ c :: (back.reverse ++ s') := by
    simpa using h
  obtain ⟨hfront, hbehind⟩ := append_cons_inj_last (hnone hs) (hnone hs') hlast
  exact ⟨List.append_cancel_right hfront, List.append_cancel_left hbehind⟩

end Signs

/-- The letter of a kind is no other sign of a signature. -/
theorem Kind.letter_ne (k : Kind) {c : Char} (hc : c ∈ ['V', 'L', '[', ')', '.']) : k.letter ≠ c := by
  rintro rfl
  revert hc
  cases k <;> decide

namespace ValueType

/-! ## Types -/

/-- Whether the names in a type have neither the sign that stands for a dot in descriptors nor the one
that ends a name. -/
def Plain : ValueType → Prop
  | void | primitive _ => True
  | reference name => '/' ∉ name.toList ∧ ';' ∉ name.toList
  | array element => element.Plain

instance decidablePlain : (t : ValueType) → Decidable t.Plain
  | void | primitive _ => .isTrue trivial
  | reference name => inferInstanceAs (Decidable ('/' ∉ name.toList ∧ ';' ∉ name.toList))
  | array element => decidablePlain element

theorem semicolon_notMem_descriptorName {name : String} (h : ';' ∉ name.toList) :
    ';' ∉ descriptorName name := by
  intro hmem
  obtain ⟨c, hc, heq⟩ := List.mem_map.1 hmem
  split at heq
  · cases heq
  · exact h (heq ▸ hc)

/-- Names without slashes are known from their descriptors, in which each slash stands for a dot. -/
theorem descriptorName_inj {name name' : String} (h : '/' ∉ name.toList) (h' : '/' ∉ name'.toList)
    (heq : descriptorName name = descriptorName name') : name = name' := by
  have hback {n : String} (hn : '/' ∉ n.toList) :
      (descriptorName n).map (fun c => if c = '/' then '.' else c) = n.toList := by
    rw [descriptorName, List.map_map]
    calc n.toList.map _ = n.toList.map id := List.map_congr_left fun c hc => ?_
      _ = n.toList := List.map_id _
    have hc : c ≠ '/' := fun heq => hn (heq ▸ hc)
    by_cases hdot : c = '.' <;> simp [hdot, hc]
  rw [← String.toList_inj, ← hback h, ← hback h', heq]

/-- A type is known from a text that its descriptor opens, and so is what comes after. -/
theorem descriptorChars_append_inj {t u : ValueType} (ht : t.Plain) (hu : u.Plain) {s s' : List Char}
    (h : t.descriptorChars ++ s = u.descriptorChars ++ s') : t = u ∧ s = s' := by
  induction t generalizing u with
  | void =>
      cases u with
      | void => exact ⟨rfl, (List.cons.inj h).2⟩
      | primitive k => exact absurd (List.cons.inj h).1.symm (k.letter_ne (by decide))
      | reference _ | array _ => simp [descriptorChars] at h
  | primitive k =>
      cases u with
      | primitive k' =>
          obtain rfl := Kind.letter_injective (List.cons.inj h).1
          exact ⟨rfl, (List.cons.inj h).2⟩
      | void | reference _ | array _ => exact absurd (List.cons.inj h).1 (k.letter_ne (by decide))
  | reference name =>
      cases u with
      | reference name' =>
          have hrest : descriptorName name ++ ';' :: s = descriptorName name' ++ ';' :: s' := by
            simpa [descriptorChars] using h
          obtain ⟨hname, hs⟩ := append_cons_inj (semicolon_notMem_descriptorName ht.2)
            (semicolon_notMem_descriptorName hu.2) hrest
          exact ⟨congrArg reference (descriptorName_inj ht.1 hu.1 hname), hs⟩
      | primitive k => exact absurd (List.cons.inj h).1.symm (k.letter_ne (by decide))
      | void | array _ => simp [descriptorChars] at h
  | array element ih =>
      cases u with
      | array element' =>
          have helement : element'.Plain := hu
          obtain ⟨rfl, hs⟩ := ih ht helement (List.cons.inj h).2
          exact ⟨rfl, hs⟩
      | primitive k => exact absurd (List.cons.inj h).1.symm (k.letter_ne (by decide))
      | void | reference _ => simp [descriptorChars] at h

/-- No descriptor begins with the parenthesis that ends the parameters. -/
theorem descriptorChars_append_ne (t : ValueType) (s s' : List Char) : t.descriptorChars ++ s ≠ ')' :: s' := by
  intro h
  cases t with
  | primitive k => exact k.letter_ne (by decide) (List.cons.inj h).1
  | void | reference _ | array _ => simp [descriptorChars] at h

/-- Parameters are known from their descriptors and the parenthesis after them, and so is what comes after that. -/
theorem flatMap_descriptorChars_inj {params params' : List ValueType} (h : ∀ t ∈ params, t.Plain)
    (h' : ∀ t ∈ params', t.Plain) {s s' : List Char}
    (heq : params.flatMap descriptorChars ++ ')' :: s = params'.flatMap descriptorChars ++ ')' :: s') :
    params = params' ∧ s = s' := by
  induction params generalizing params' with
  | nil =>
      cases params' with
      | nil => exact ⟨rfl, (List.cons.inj heq).2⟩
      | cons u params' =>
          rw [List.flatMap_cons, List.append_assoc] at heq
          exact absurd heq.symm (descriptorChars_append_ne u _ _)
  | cons t params ih =>
      rw [List.flatMap_cons, List.append_assoc] at heq
      cases params' with
      | nil => exact absurd heq (descriptorChars_append_ne t _ _)
      | cons u params' =>
          rw [List.flatMap_cons, List.append_assoc] at heq
          obtain ⟨ht, hparams⟩ := List.forall_mem_cons.1 h
          obtain ⟨hu, hparams'⟩ := List.forall_mem_cons.1 h'
          obtain ⟨rfl, hrest⟩ := descriptorChars_append_inj ht hu heq
          obtain ⟨rfl, hs⟩ := ih hparams hparams' hrest
          exact ⟨rfl, hs⟩

/-- Descriptors have no dots. -/
theorem dot_notMem_descriptorChars (t : ValueType) : '.' ∉ t.descriptorChars := by
  induction t with
  | void => decide
  | primitive k => exact fun h => k.letter_ne (by decide) (List.mem_singleton.1 h).symm
  | reference name =>
      intro h
      have hname : '.' ∈ descriptorName name := by simpa [descriptorChars] using h
      obtain ⟨c, -, hc⟩ := List.mem_map.1 hname
      split at hc
      · cases hc
      · contradiction
  | array element ih =>
      intro h
      exact ih (by simpa [descriptorChars] using h)

end ValueType

/-! ## Signatures -/

section Signatures

variable {params params' : List ValueType} {returns returns' : ValueType}

theorem toList_signatureDescriptor (params : List ValueType) (returns : ValueType) :
    (signatureDescriptor params returns).toList =
      '(' :: (params.flatMap ValueType.descriptorChars ++ ')' :: returns.descriptorChars) :=
  String.toList_ofList

/-- A signature is known from a text that its descriptor opens, and so is what comes after. -/
theorem signatureDescriptor_append_inj (hplain : ∀ t ∈ returns :: params, t.Plain)
    (hplain' : ∀ t ∈ returns' :: params', t.Plain) {s s' : List Char}
    (h : (signatureDescriptor params returns).toList ++ s = (signatureDescriptor params' returns').toList ++ s') :
    params = params' ∧ returns = returns' ∧ s = s' := by
  obtain ⟨hreturns, hparams⟩ := List.forall_mem_cons.1 hplain
  obtain ⟨hreturns', hparams'⟩ := List.forall_mem_cons.1 hplain'
  rw [toList_signatureDescriptor, toList_signatureDescriptor] at h
  have hopened : params.flatMap ValueType.descriptorChars ++ ')' :: (returns.descriptorChars ++ s) =
      params'.flatMap ValueType.descriptorChars ++ ')' :: (returns'.descriptorChars ++ s') := by
    simpa using h
  obtain ⟨rfl, hrest⟩ := ValueType.flatMap_descriptorChars_inj hparams hparams' hopened
  obtain ⟨rfl, hs⟩ := ValueType.descriptorChars_append_inj hreturns hreturns' hrest
  exact ⟨rfl, rfl, hs⟩

theorem signatureDescriptor_inj (hplain : ∀ t ∈ returns :: params, t.Plain)
    (hplain' : ∀ t ∈ returns' :: params', t.Plain)
    (h : signatureDescriptor params returns = signatureDescriptor params' returns') :
    params = params' ∧ returns = returns' := by
  have hopens : (signatureDescriptor params returns).toList ++ [] =
      (signatureDescriptor params' returns').toList ++ [] := by rw [h]
  obtain ⟨hparams, hreturns, -⟩ := signatureDescriptor_append_inj hplain hplain' hopens
  exact ⟨hparams, hreturns⟩

theorem dot_notMem_signatureDescriptor (params : List ValueType) (returns : ValueType) :
    '.' ∉ (signatureDescriptor params returns).toList := by
  rw [toList_signatureDescriptor]
  simp [ValueType.dot_notMem_descriptorChars]

namespace Layer

/-- Bodies for one name of operations have different names if the signatures differ, whatever types they are of. -/
theorem bodyName_inj (hplain : ∀ t ∈ returns :: params, t.Plain) (hplain' : ∀ t ∈ returns' :: params', t.Plain)
    {owner owner' name : String} (h : bodyName owner name params returns = bodyName owner' name params' returns') :
    owner = owner' ∧ params = params' ∧ returns = returns' := by
  have hchars : owner.toList ++ (('.' :: name.toList) ++ (signatureDescriptor params returns).toList) =
      owner'.toList ++ (('.' :: name.toList) ++ (signatureDescriptor params' returns').toList) := by
    simpa [bodyName] using congrArg String.toList h
  obtain ⟨howner, hsignature⟩ := append_middle_inj List.mem_cons_self (dot_notMem_signatureDescriptor _ _)
    (dot_notMem_signatureDescriptor _ _) hchars
  obtain ⟨hparams, hreturns⟩ := signatureDescriptor_inj hplain hplain' (String.toList_inj.1 hsignature)
  exact ⟨String.toList_inj.1 howner, hparams, hreturns⟩

/-- In texts that begin alike, bodies of one type for one name of operations are told apart by what comes next. -/
theorem bodyName_context_inj (hplain : ∀ t ∈ returns :: params, t.Plain)
    (hplain' : ∀ t ∈ returns' :: params', t.Plain) {owner name before after after' : String}
    (h : before ++ (bodyName owner name params returns ++ after) =
      before ++ (bodyName owner name params' returns' ++ after')) : params = params' ∧ returns = returns' := by
  have hchars : (signatureDescriptor params returns).toList ++ after.toList =
      (signatureDescriptor params' returns').toList ++ after'.toList := by
    simpa [bodyName] using congrArg String.toList h
  obtain ⟨hparams, hreturns, -⟩ := signatureDescriptor_append_inj hplain hplain' hchars
  exact ⟨hparams, hreturns⟩

end Layer

/-! ## Errors -/

/-- Whether host errors of one cause name something by these texts. -/
inductive HostError.NameAlike (text text' : String) : HostError → HostError → Prop
  | unsupported : NameAlike text text' (.unsupported text) (.unsupported text')
  | abstractMethod : NameAlike text text' (.abstractMethod text) (.abstractMethod text')
  | unimplementedAbstract (typeName typeName' : String) :
      NameAlike text text' (.unimplementedAbstract text typeName) (.unimplementedAbstract text' typeName')
  | argumentCount (expected got expected' got' : Nat) :
      NameAlike text text' (.argumentCount text expected got) (.argumentCount text' expected' got')
  | nullPointer (use use' : String) : NameAlike text text' (.nullPointer (text ++ use)) (.nullPointer (text' ++ use'))
  | invalidCode (fault fault' : String) :
      NameAlike text text' (.invalidCode (text ++ fault)) (.invalidCode (text' ++ fault'))

/-- Whether refusals of definitions for one cause name bodies by these texts. -/
inductive EmitError.NameAlike (text text' : String) : EmitError → EmitError → Prop
  | unmarkedLabel (label : Nat) : NameAlike text text' (.unmarkedLabel text label) (.unmarkedLabel text' label)
  | invalidCode (pc pc' : Nat) (fault fault' : CodeFault) :
      NameAlike text text' (.invalidCode text pc fault) (.invalidCode text' pc' fault')
  | constantPoolOverflow : NameAlike text text' (.constantPoolOverflow text) (.constantPoolOverflow text')
  | malformed (offset offset' : Nat) : NameAlike text text' (.malformed text offset) (.malformed text' offset')

/-- Whether texts are told apart wherever errors of one cause name something by them. -/
structure ToldApart (text text' : String) : Prop where
  host : ∀ e e', HostError.NameAlike text text' e e' → e.message ≠ e'.message
  emit : ∀ e e', EmitError.NameAlike text text' e e' → e.message ≠ e'.message

/-- Host errors of one cause begin alike, and go on with what they name. -/
theorem HostError.exists_context {text text' : String} {e e' : HostError} (h : NameAlike text text' e e') :
    ∃ before after after', e.message = before ++ (text ++ after) ∧ e'.message = before ++ (text' ++ after') := by
  cases h with
  | unsupported =>
      have hmessage (t : String) : (unsupported t).message = "Unsupported operation: " ++ (t ++ "") :=
        congrArg ("Unsupported operation: " ++ ·) String.append_empty.symm
      exact ⟨_, _, _, hmessage text, hmessage text'⟩
  | abstractMethod =>
      have hmessage (t : String) : (abstractMethod t).message = "Abstract method invoked: " ++ (t ++ "") :=
        congrArg ("Abstract method invoked: " ++ ·) String.append_empty.symm
      exact ⟨_, _, _, hmessage text, hmessage text'⟩
  | unimplementedAbstract typeName typeName' =>
      have hmessage (t n : String) :
          (unimplementedAbstract t n).message = "No implementation of " ++ (t ++ (" found for " ++ n)) := by
        change "No implementation of " ++ t ++ " found for " ++ n = _
        simp only [String.append_assoc]
      exact ⟨_, _, _, hmessage text typeName, hmessage text' typeName'⟩
  | argumentCount expected got expected' got' =>
      have hmessage (t : String) (n k : Nat) : (argumentCount t n k).message =
          "" ++ (t ++ (" expects " ++ toString n ++ " arguments, got " ++ toString k)) := by
        change t ++ " expects " ++ toString n ++ " arguments, got " ++ toString k = _
        simp only [String.append_assoc, String.empty_append]
      exact ⟨_, _, _, hmessage text expected got, hmessage text' expected' got'⟩
  | nullPointer use use' => exact ⟨"Null pointer: ", use, use', rfl, rfl⟩
  | invalidCode fault fault' => exact ⟨"Invalid generated code: ", fault, fault', rfl, rfl⟩

/-- So do refusals of definitions. -/
theorem EmitError.exists_context {text text' : String} {e e' : EmitError} (h : NameAlike text text' e e') :
    ∃ before after after', e.message = before ++ (text ++ after) ∧ e'.message = before ++ (text' ++ after') := by
  cases h with
  | unmarkedLabel label =>
      have hmessage (t : String) : (unmarkedLabel t label).message =
          "Label " ++ toString label ++ " used but never marked in " ++ (t ++ "") :=
        congrArg ("Label " ++ toString label ++ " used but never marked in " ++ ·) String.append_empty.symm
      exact ⟨_, _, _, hmessage text, hmessage text'⟩
  | invalidCode pc pc' fault fault' =>
      have hmessage (t : String) (n : Nat) (f : CodeFault) : (invalidCode t n f).message =
          "Invalid code in " ++ (t ++ (" at " ++ toString n ++ ": " ++ f.message)) := by
        change "Invalid code in " ++ t ++ " at " ++ toString n ++ ": " ++ f.message = _
        simp only [String.append_assoc]
      exact ⟨_, _, _, hmessage text pc fault, hmessage text' pc' fault'⟩
  | constantPoolOverflow =>
      have hmessage (t : String) : (constantPoolOverflow t).message = "Constant pool overflow in " ++ (t ++ "") :=
        congrArg ("Constant pool overflow in " ++ ·) String.append_empty.symm
      exact ⟨_, _, _, hmessage text, hmessage text'⟩
  | malformed offset offset' =>
      have hmessage (t : String) (n : Nat) : (malformed t n).message =
          "Malformed byte code in " ++ (t ++ (" at offset " ++ toString n)) := by
        change "Malformed byte code in " ++ t ++ " at offset " ++ toString n = _
        simp only [String.append_assoc]
      exact ⟨_, _, _, hmessage text offset, hmessage text' offset'⟩

/-- Texts are told apart that are different wherever they come after the same words. -/
theorem ToldApart.of_context {text text' : String}
    (h : ∀ before after after', before ++ (text ++ after) ≠ before ++ (text' ++ after')) : ToldApart text text' where
  host e e' halike hmessage := by
    obtain ⟨before, after, after', he, he'⟩ := HostError.exists_context halike
    exact h before after after' (he ▸ he' ▸ hmessage)
  emit e e' halike hmessage := by
    obtain ⟨before, after, after', he, he'⟩ := EmitError.exists_context halike
    exact h before after after' (he ▸ he' ▸ hmessage)

/-- **Descriptors are unambiguous.** Signatures with one descriptor are equal, if the names in their types have neither
slashes nor semicolons. So different signatures of one name of operations are told apart by the names of their bodies
and by the texts of the operations, whatever types these are of, and within a type by every error that shows them. -/
theorem signatures_told_apart (hplain : ∀ t ∈ returns :: params, t.Plain)
    (hplain' : ∀ t ∈ returns' :: params', t.Plain) :
    (signatureDescriptor params returns = signatureDescriptor params' returns' →
      params = params' ∧ returns = returns') ∧
    ((params, returns) ≠ (params', returns') → ∀ name : String,
      (∀ owner owner', Layer.bodyName owner name params returns ≠ Layer.bodyName owner' name params' returns') ∧
      (∀ owner, ToldApart (Layer.bodyName owner name params returns) (Layer.bodyName owner name params' returns')) ∧
      ∀ m m' : Method, m.slot = ⟨name, returns, params⟩ → m'.slot = ⟨name, returns', params'⟩ →
        m.text ≠ m'.text ∧ (m.declaring = m'.declaring → ToldApart m.text m'.text)) := by
  refine ⟨signatureDescriptor_inj hplain hplain', fun hne name => ?_⟩
  have hdiffer : ¬(params = params' ∧ returns = returns') := fun h => hne (Prod.ext h.1 h.2)
  have hnames (owner owner' : String) :
      Layer.bodyName owner name params returns ≠ Layer.bodyName owner' name params' returns' :=
    fun h => hdiffer (Layer.bodyName_inj hplain hplain' h).2
  have hshown (owner : String) :
      ToldApart (Layer.bodyName owner name params returns) (Layer.bodyName owner name params' returns') :=
    .of_context fun _ _ _ h => hdiffer (Layer.bodyName_context_inj hplain hplain' h)
  refine ⟨hnames, hshown, fun m m' hslot hslot' => ?_⟩
  obtain ⟨rfl, rfl, rfl⟩ := Slot.mk.inj hslot
  obtain ⟨hname, rfl, rfl⟩ := Slot.mk.inj hslot'
  -- the text of an operation is the name that a body for it would have in its own type
  have htext : m'.text = Layer.bodyName m'.declaring m.name m'.params m'.returns := by
    rw [← hname]
    rfl
  refine ⟨htext ▸ hnames m.declaring m'.declaring, fun hdeclaring => ?_⟩
  rw [htext, ← hdeclaring]
  exact hshown m.declaring

end Signatures

/-- An operation on arrays without a body. -/
def arrayOperation (returns : ValueType) : Method :=
  ⟨"f", [.array (.reference "a.b")], returns, .abstract, "app.Base", .root, .abstract⟩

/-- Two operations that differ in whether the result is an array have different descriptors and texts, and no script
type that leaves one out is reported like one that leaves out the other. -/
theorem signatures_told_apart_arrays :
    let element := ValueType.reference "a.b"
    (∀ t ∈ [element, .array element], t.Plain) ∧ (∀ t ∈ [.array element, .array element], ValueType.Plain t) ∧
      ([ValueType.array element], element) ≠ ([.array element], .array element) ∧
      signatureDescriptor [.array element] element ≠ signatureDescriptor [.array element] (.array element) ∧
      Layer.bodyName "app.Base" "f" [.array element] element ≠
        Layer.bodyName "app.Other" "f" [.array element] (.array element) ∧
      (arrayOperation element).text ≠ (arrayOperation (.array element)).text ∧
      (HostError.unimplementedAbstract (arrayOperation element).text "app.Script").message ≠
        (HostError.unimplementedAbstract (arrayOperation (.array element)).text "app.Sub").message := by
  intro element
  have hplain : ∀ t ∈ [element, .array element], t.Plain := by decide
  have hplain' : ∀ t ∈ [.array element, .array element], ValueType.Plain t := by decide
  have hdiffer : ([ValueType.array element], element) ≠ ([.array element], .array element) := by decide
  obtain ⟨hequal, htold⟩ := signatures_told_apart hplain hplain'
  obtain ⟨hnames, -, htexts⟩ := htold hdiffer "f"
  obtain ⟨htext, hshown⟩ := htexts (arrayOperation element) (arrayOperation (.array element)) rfl rfl
  exact ⟨hplain, hplain', hdiffer, fun h => absurd (hequal h).2 (by decide), hnames _ _, htext,
    (hshown rfl).host _ _ (.unimplementedAbstract _ _)⟩

end Interpose

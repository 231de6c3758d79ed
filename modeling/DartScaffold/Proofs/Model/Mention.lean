import DartScaffold.Model.ClassText
import DartScaffold.Proofs.Dart.Mention
import DartScaffold.Proofs.Model.Members

/-!
The types that the text of a class cites. Types, decoders and the decoders of list elements go
through the list layers of a shape to the object inside, and cite its class at every depth
(`cites_of_mem_fieldCode`); the rest of a class cites none but its own (`within_classText`). The
code of the fields stands in the text as it is (`infix_of_mem_fieldCode`).
-/

namespace DartScaffold

/-- The shapes of the elements of nested lists, the outermost first. -/
def Shape.elements : Shape → List Shape
  | list element => element :: element.elements
  | _ => []

namespace Model

open Dart (Field IsTypeName Within Cites Lead Trail Gap stringLiteral)

/-- The class of the object that is held at any depth of lists. -/
def heldClass (className : String) (shape : Shape) : List String :=
  match shape.unwrapped with
  | .object _ => [className]
  | _ => []

theorem heldClass_of_object {className : String} {shape : Shape} {fields : Fields}
    (h : shape.unwrapped = .object fields) : heldClass className shape = [className] := by
  rw [heldClass, h]

theorem heldClass_eq_nil {className : String} {shape : Shape}
    (h : ∀ fields, shape.unwrapped ≠ .object fields) : heldClass className shape = [] := by
  rw [heldClass]
  split
  · rename_i fields hheld
    exact absurd hheld (h fields)
  · rfl

/-! ### Expressions -/

section Expressions

variable {className : String} {shape : Shape}

theorem cites_scalarType (kind : Scalar) : Cites (scalarType kind) [] := by
  cases kind <;> decide

theorem cites_dartType (hname : ∀ name ∈ heldClass className shape, IsTypeName name) :
    Cites (dartType className shape) (heldClass className shape) := by
  -- a layer of list changes neither the object that is held nor its class
  induction shape using Shape.unwrapped.induct with
  | case1 element ih => exact ((ih hname).before (by decide)).after (by decide)
  | case2 shape hlist =>
      cases shape with
      | scalar kind => exact cites_scalarType kind
      | list element => exact absurd rfl (hlist element)
      | object fields => exact Dart.cites_typeName (hname className List.mem_cons_self)

theorem cites_nullable {type : String} {names : List String} (h : Cites type names) :
    Cites (nullable type) names := by
  rw [nullable]
  split
  · exact h
  · exact h.after (by decide)

theorem trail_dropUnparsed (element : Shape) : Trail (dropUnparsed element) := by
  rw [dropUnparsed.eq_def]
  split <;> decide

/-- The elements of a list, each read by `inner`. -/
theorem cites_mapped {inner : String} {names : List String} (h : Cites inner names)
    (element : Shape) : Cites (".map((e) => " ++ inner ++ ")" ++ dropUnparsed element) names :=
  ((h.before (by decide)).after (by decide)).after (trail_dropUnparsed element)

/-- Elements that need no conversion hold no object. -/
theorem heldClass_of_elementFromMap (h : elementFromMap className shape = none) :
    heldClass className shape = [] := by
  cases shape with
  | scalar kind => rfl
  | list element =>
      rw [elementFromMap] at h
      split at h <;> contradiction
  | object fields => contradiction

theorem cites_elementFromMap (hname : ∀ name ∈ heldClass className shape, IsTypeName name) :
    ∀ code ∈ elementFromMap className shape, Cites code (heldClass className shape) := by
  induction shape using Shape.unwrapped.induct with
  | case1 element ih =>
      rw [elementFromMap]
      split
      · rename_i inner hinner
        rintro code ⟨⟩
        have hmapped := cites_mapped (ih hname inner hinner) element
        exact (hmapped.after (by decide)).before (by decide)
      · -- without a conversion no class is cited, but then none is held
        rename_i hnone
        rintro code ⟨⟩
        have hheld : heldClass className element = [] := heldClass_of_elementFromMap hnone
        show Cites "List.from(e)" (heldClass className element)
        rw [hheld]
        decide
  | case2 shape hlist =>
      cases shape with
      | scalar kind =>
          rintro code hcode
          show Cites code []
          cases kind <;> obtain ⟨⟩ := hcode <;> decide
      | list element => exact absurd rfl (hlist element)
      | object fields =>
          rintro code ⟨⟩
          exact (Dart.cites_typeName (hname className List.mem_cons_self)).after (by decide)

theorem cites_fieldFromMap (hname : ∀ name ∈ heldClass className shape, IsTypeName name)
    {source : String} (hsource : Cites source []) :
    Cites (fieldFromMap className shape source) (heldClass className shape) := by
  cases shape with
  | scalar kind =>
      cases kind with
      | int | double | datetime => exact (hsource.before (by decide)).after (by decide)
      | bool | string | dynamic => exact hsource
  | list element =>
      unfold fieldFromMap
      dsimp only
      split
      · rename_i inner hinner
        have helement : ∀ code ∈ elementFromMap className element,
            Cites code (heldClass className element) := cites_elementFromMap hname
        have hmapped := cites_mapped (helement inner hinner) element
        have hlist : Cites (source ++ " is List ? List.from((" ++ source) [] :=
          hsource.around_nil (by decide) hsource
        have hfilter : Gap " as List).where((element) => element != null)" := by decide
        exact (hlist.after hfilter.toTrail).append (hmapped.after (by decide))
          (.inl (hfilter.isBefore_append _))
      · rename_i hnone
        have hheld : heldClass className element = [] := heldClass_of_elementFromMap hnone
        show Cites _ (heldClass className element)
        rw [hheld]
        exact (hsource.around (by decide) hsource).after (by decide)
  | object fields =>
      have hclass := Dart.cites_typeName (hname className List.mem_cons_self)
      exact ((hsource.around (by decide) hclass).around (by decide) hsource).after (by decide)

theorem cites_elementToMap {dateCall : String} (hdate : Trail dateCall) (shape : Shape) :
    ∀ code ∈ elementToMap dateCall shape, Cites code [] := by
  induction shape using Shape.unwrapped.induct with
  | case1 element ih =>
      intro code hcode
      rw [elementToMap] at hcode
      obtain ⟨inner, hinner, rfl⟩ := Option.map_eq_some_iff.mp hcode
      exact ((ih inner hinner).before (by decide)).after (by decide)
  | case2 shape hlist =>
      cases shape with
      | scalar kind =>
          cases kind with
          | datetime =>
              rintro code ⟨⟩
              have helement : Cites "e" [] := by decide
              exact helement.after hdate
          | _ => rintro code ⟨⟩
      | list element => exact absurd rfl (hlist element)
      | object fields =>
          rintro code ⟨⟩
          decide

theorem cites_fieldToMap {dateCall : String} (hdate : Trail dateCall) (shape : Shape)
    {name : String} (hname : Cites name []) : Cites (fieldToMap dateCall shape name) [] := by
  cases shape with
  | scalar kind =>
      cases kind with
      | datetime => exact (hname.after (by decide)).after hdate
      | _ => exact hname
  | list element =>
      rw [fieldToMap]
      split
      · rename_i inner hinner
        exact (hname.around (by decide) (cites_elementToMap hdate element inner hinner)).after
          (by decide)
      · exact hname
  | object fields => exact hname.after (by decide)

end Expressions

/-! ### Fields -/

theorem heldClass_of_mem_elements {className : String} {shape : Shape} :
    ∀ element ∈ shape.elements, heldClass className element = heldClass className shape := by
  induction shape using Shape.unwrapped.induct with
  | case1 element ih => exact List.forall_mem_cons.mpr ⟨rfl, ih⟩
  | case2 shape hlist =>
      cases shape with
      | list element => exact absurd rfl (hlist element)
      | _ => exact List.forall_mem_nil _

/-- What the code of a class says about the object that a field holds: the type of the field, how
it is read from a map, and how the elements are, at each depth, if it holds lists. -/
def fieldCode (nameOf : Path → String) (f : Field) : List String :=
  fieldType nameOf f :: fieldFromMap (nameOf f.path) f.shape s!"map[{stringLiteral f.key}]" ::
    f.shape.elements.filterMap (elementFromMap (nameOf f.path))

section FieldCode

variable {nameOf : Path → String} {f : Field}
  (hname : ∀ name ∈ heldClass (nameOf f.path) f.shape, IsTypeName name)

include hname

theorem cites_fieldType : Cites (fieldType nameOf f) (heldClass (nameOf f.path) f.shape) :=
  cites_nullable (cites_dartType hname)

theorem cites_decoded :
    Cites (fieldFromMap (nameOf f.path) f.shape s!"map[{stringLiteral f.key}]")
      (heldClass (nameOf f.path) f.shape) :=
  cites_fieldFromMap hname
    (((Dart.cites_stringLiteral f.key).before (by decide)).after (by decide))

/-- All of it cites the class of that object, and no other class. -/
theorem cites_of_mem_fieldCode :
    ∀ code ∈ fieldCode nameOf f, Cites code (heldClass (nameOf f.path) f.shape) := by
  refine List.forall_mem_cons.mpr ⟨cites_fieldType hname,
    List.forall_mem_cons.mpr ⟨cites_decoded hname, fun code hcode => ?_⟩⟩
  obtain ⟨element, helement, hread⟩ := List.mem_filterMap.mp hcode
  have hsame : heldClass (nameOf f.path) element = heldClass (nameOf f.path) f.shape :=
    heldClass_of_mem_elements element helement
  rw [← hsame] at hname ⊢
  exact cites_elementFromMap hname code hread

end FieldCode

/-! ### Lines -/

/-- What the lines of a class rely on: the names of its members are none of types, and the objects
that its fields hold have classes among `names`. -/
structure Members.Known (m : Members) (nameOf : Path → String) (names : List String) : Prop where
  named : ∀ name ∈ m.names, Cites name []
  typed : ∀ member ∈ m.fixed, Cites member.2 []
  held : ∀ f ∈ m.fields, ∀ name ∈ heldClass (nameOf f.path) f.shape, IsTypeName name ∧ name ∈ names

namespace Members.Known

variable {m : Members} {nameOf : Path → String} {names : List String} (h : m.Known nameOf names)

include h

theorem named_fixed {member : String × String} (hmember : member ∈ m.fixed) :
    Cites member.1 [] :=
  h.named _ (List.mem_append_left _ (List.mem_append_left _ (List.mem_map_of_mem hmember)))

theorem named_param {p : String} (hp : p ∈ m.params) : Cites p [] :=
  h.named _ (List.mem_append_left _ (List.mem_append_right _ hp))

variable {f : Field} (hf : f ∈ m.fields)

include hf

theorem named_field : Cites f.name [] :=
  h.named _ (List.mem_append_right _ (List.mem_map_of_mem hf))

theorem cites_type : Cites (fieldType nameOf f) (heldClass (nameOf f.path) f.shape) :=
  cites_fieldType fun name hname => (h.held f hf name hname).1

theorem cites_decoded :
    Cites (fieldFromMap (nameOf f.path) f.shape s!"map[{stringLiteral f.key}]")
      (heldClass (nameOf f.path) f.shape) :=
  Model.cites_decoded fun name hname => (h.held f hf name hname).1

theorem within_held {line : String} (hline : Cites line (heldClass (nameOf f.path) f.shape)) :
    Within line names :=
  hline.toWithin.mono fun name hname => (h.held f hf name hname).2

end Members.Known

/-- Lines that are there under a condition only. -/
theorem forall_mem_ite {α : Type} {P : α → Prop} {c : Bool} {items : List α}
    (h : ∀ a ∈ items, P a) : ∀ a ∈ (if c then items else []), P a := by
  split
  · exact h
  · exact List.forall_mem_nil _

section Lines

variable {names : List String}

theorem within_of_nil {line : String} (h : Cites line []) : Within line names :=
  h.toWithin.mono (List.nil_subset names)

theorem within_fixed {lines : List String} (h : ∀ line ∈ lines, Cites line []) :
    ∀ line ∈ lines, Within line names :=
  fun line hline => within_of_nil (h line hline)

section Own

variable {name : String} (hname : IsTypeName name) (hmem : name ∈ names)

include hname hmem

theorem within_own {front back : String} (hfront : Lead front) (hback : Trail back) :
    Within (front ++ name ++ back) names :=
  (((Dart.cites_typeName hname).before hfront).after hback).toWithin.mono (by simpa using hmem)

theorem within_constructorLines {nameOf : Path → String} {m : Members}
    (hm : m.Known nameOf names) : ∀ line ∈ constructorLines name m, Within line names := by
  have hparameters : ∀ p ∈ m.parameters, Cites p.line [] := by
    intro p hp
    have hmember : p.name ∈ m.names := by
      rw [← names_parameters]
      exact List.mem_map_of_mem hp
    rw [Parameter.line]
    split <;> exact ((hm.named _ hmember).before (by decide)).after (by decide)
  rw [constructorLines_parameters]
  split
  · exact List.forall_mem_singleton.mpr (within_own hname hmem (by decide) (by decide))
  · refine List.forall_mem_cons.mpr ⟨within_own hname hmem (by decide) (by decide),
      within_fixed (List.forall_mem_append.mpr ⟨List.forall_mem_map.mpr hparameters, by decide⟩)⟩

theorem within_fromJsonLines : ∀ line ∈ fromJsonLines name, Within line names := by
  refine List.forall_mem_cons.mpr ⟨?_, List.forall_mem_singleton.mpr ?_⟩
  · exact within_own hname hmem (by decide) (by decide)
  · exact within_own hname hmem (by decide) (by decide)

theorem within_fromMapLines {nameOf : Path → String} {m : Members} (hm : m.Known nameOf names) :
    ∀ line ∈ fromMapLines nameOf name m.fields, Within line names := by
  have hentries : ∀ f ∈ m.fields, Within ("      " ++ f.name ++ ": " ++
      fieldFromMap (nameOf f.path) f.shape ("map[" ++ stringLiteral f.key ++ "]") ++ ",") names := by
    intro f hf
    have hfield := (hm.named_field hf).before (show Lead "      " by decide)
    exact hm.within_held hf ((hfield.around (by decide) (hm.cites_decoded hf)).after (by decide))
  have hopening : Within ("  factory " ++ name ++ ".fromMap(Map<String, dynamic> map) \x7b") names :=
    within_own hname hmem (by decide) (by decide)
  have hempty : Within ("    return const " ++ name ++ "();") names :=
    within_own hname hmem (by decide) (by decide)
  have hreturn : Within ("    return " ++ name ++ "(") names :=
    within_own hname hmem (by decide) (by decide)
  rw [fromMapLines]
  refine List.forall_mem_append.mpr ⟨List.forall_mem_append.mpr
    ⟨List.forall_mem_singleton.mpr hopening, ?_⟩, within_fixed (by decide)⟩
  split
  · exact List.forall_mem_singleton.mpr hempty
  · exact List.forall_mem_append.mpr ⟨List.forall_mem_append.mpr
      ⟨List.forall_mem_singleton.mpr hreturn, List.forall_mem_map.mpr hentries⟩,
      within_fixed (by decide)⟩

theorem within_copyWithLines {nameOf : Path → String} {m : Members} (hm : m.Known nameOf names) :
    ∀ line ∈ copyWithLines nameOf name m.fields, Within line names := by
  have hparameters : ∀ f ∈ m.fields,
      Within ("    " ++ fieldType nameOf f ++ " " ++ f.name ++ ",") names := by
    intro f hf
    have htype := (hm.cites_type hf).before (show Lead "    " by decide)
    exact hm.within_held hf ((htype.around_nil (by decide) (hm.named_field hf)).after (by decide))
  have hcopies : ∀ f ∈ m.fields,
      Within ("      " ++ f.name ++ ": " ++ f.name ++ " ?? this." ++ f.name ++ ",") names := by
    intro f hf
    have hfield := hm.named_field hf
    have hpair : Cites ("      " ++ f.name ++ ": " ++ f.name) [] :=
      (hfield.before (by decide)).around_nil (by decide) hfield
    exact within_of_nil ((hpair.around_nil (by decide) hfield).after (by decide))
  have hopening : Within ("  " ++ name ++ " copyWith(\x7b") names :=
    within_own hname hmem (by decide) (by decide)
  have hreturn : Within ("    return " ++ name ++ "(") names :=
    within_own hname hmem (by decide) (by decide)
  rw [copyWithLines]
  split
  · refine List.forall_mem_cons.mpr ⟨?_, List.forall_mem_cons.mpr ⟨?_, within_fixed (by decide)⟩⟩
    · exact within_own hname hmem (by decide) (by decide)
    · exact within_own hname hmem (by decide) (by decide)
  · simp only [List.forall_mem_append, List.forall_mem_map]
    refine ⟨⟨⟨⟨List.forall_mem_singleton.mpr hopening, hparameters⟩, ?_⟩, hcopies⟩,
      within_fixed (by decide)⟩
    exact List.forall_mem_cons.mpr ⟨within_of_nil (by decide), List.forall_mem_singleton.mpr hreturn⟩

end Own

theorem within_declarationLines {nameOf : Path → String} {m : Members}
    (hm : m.Known nameOf names) : ∀ line ∈ declarationLines nameOf m, Within line names := by
  simp only [declarationLines, List.forall_mem_append, List.forall_mem_map]
  refine ⟨⟨fun member hmember => ?_, fun p hp => ?_⟩, fun f hf => ?_⟩
  · have htype := (hm.typed member hmember).before (show Lead "  final " by decide)
    exact within_of_nil ((htype.around_nil (by decide) (hm.named_fixed hmember)).after (by decide))
  · exact within_of_nil (((hm.named_param hp).before (by decide)).after (by decide))
  · have htype := (hm.cites_type hf).before (show Lead "  final " by decide)
    exact hm.within_held hf ((htype.around_nil (by decide) (hm.named_field hf)).after (by decide))

theorem within_toMapLines {policy : Policy} (hdate : Trail policy.dateCall)
    {nameOf : Path → String} {m : Members} (hm : m.Known nameOf names) :
    ∀ line ∈ toMapLines policy m.fields, Within line names := by
  have hfields : ∀ f ∈ m.fields, Cites ("      " ++ ((if policy.kind.isBody then
      "if (" ++ f.name ++ " != null) " else "") ++ stringLiteral f.key ++ ": " ++
        fieldToMap policy.dateCall f.shape f.name ++ ",")) [] := by
    intro f hf
    have hfield := hm.named_field hf
    have hvalue := cites_fieldToMap hdate f.shape hfield
    have hkey := Dart.cites_stringLiteral f.key
    have hguarded : Cites ((if policy.kind.isBody then "if (" ++ f.name ++ " != null) " else "") ++
        stringLiteral f.key) [] := by
      split
      · have hclose : Gap " != null) " := by decide
        exact (hfield.before (by decide)).around_nil hclose hkey
      · simpa using hkey
    exact ((hguarded.around_nil (by decide) hvalue).after (by decide)).before (by decide)
  -- the entry for the raw body goes before those of the fields, and any of them can be missing
  rw [toMapLines]
  dsimp only
  generalize hall : (if policy.kind.isBody then
    ["if (rawBody?.isNotEmpty ?? false) ...rawBody ?? \x7b\x7d,"] else []) ++ _ = entries
  have hentries : ∀ entry ∈ entries, Cites ("      " ++ entry) [] := by
    subst hall
    refine List.forall_mem_append.mpr ⟨forall_mem_ite ?_, List.forall_mem_map.mpr hfields⟩
    exact List.forall_mem_singleton.mpr (by decide)
  refine within_fixed (List.forall_mem_append.mpr ⟨List.forall_mem_append.mpr ⟨by decide, ?_⟩,
    by decide⟩)
  split
  · decide
  · exact List.forall_mem_append.mpr ⟨List.forall_mem_append.mpr
      ⟨by decide, List.forall_mem_map.mpr hentries⟩, by decide⟩

theorem within_propsLines {memberNames : List String} (h : ∀ name ∈ memberNames, Cites name []) :
    ∀ line ∈ propsLines memberNames, Within line names := by
  have hlist : Cites (", ".intercalate memberNames) [] :=
    ⟨Dart.within_intercalate (by decide) (within_fixed h), List.forall_mem_nil _⟩
  refine List.forall_mem_cons.mpr ⟨within_of_nil (by decide), List.forall_mem_singleton.mpr ?_⟩
  exact within_of_nil ((hlist.before (by decide)).after (by decide))

/-! ### Classes -/

theorem known_members {kind : Kind} {options : BodyOptions} {path : Path} {node : Fields}
    {nameOf : Path → String}
    (hheld : ∀ f ∈ (members kind options path node).fields,
      ∀ name ∈ heldClass (nameOf f.path) f.shape, IsTypeName name ∧ name ∈ names) :
    (members kind options path node).Known nameOf names := by
  have hfixed : ∀ member ∈ (members kind options path node).fixed,
      Cites member.1 [] ∧ Cites member.2 [] := by
    refine List.forall_mem_append.mpr ⟨forall_mem_ite ?_, forall_mem_ite ?_⟩
    · exact List.forall_mem_singleton.mpr (by decide)
    · exact List.forall_mem_singleton.mpr (by decide)
  refine ⟨?_, fun member hmember => (hfixed member hmember).2, hheld⟩
  refine List.forall_mem_append.mpr ⟨List.forall_mem_append.mpr ⟨?_, ?_⟩, ?_⟩
  · exact List.forall_mem_map.mpr fun member hmember => (hfixed member hmember).1
  · exact List.forall_mem_map.mpr fun raw _ =>
      Dart.cites_fieldName (Dart.isMemberName_fieldName raw).spelled
  · exact List.forall_mem_map.mpr fun f hf =>
      Dart.cites_fieldName (Dart.isMemberName_of_mem_fieldsAt path _ node f hf).spelled

theorem within_classText {policy : Policy} {nameOf : Path → String} {options : BodyOptions}
    {path : Path} {node : Fields} (hdate : Trail policy.dateCall) (hname : IsTypeName (nameOf path))
    (hmem : nameOf path ∈ names)
    (hm : (members policy.kind options path node).Known nameOf names) :
    Within (classText policy nameOf options path node) names := by
  have hsections : ∀ lines ∈ classSections policy nameOf (nameOf path)
      (members policy.kind options path node), ∀ line ∈ lines, Within line names := by
    simp only [classSections, List.forall_mem_cons]
    refine ⟨within_constructorLines hname hmem hm, forall_mem_ite ?_, forall_mem_ite ?_,
      within_declarationLines hm, forall_mem_ite ?_, forall_mem_ite ?_, forall_mem_ite ?_,
      within_propsLines hm.named, List.forall_mem_nil _⟩
    · exact within_fromMapLines hname hmem hm
    · exact within_fromJsonLines hname hmem
    · exact within_toMapLines hdate hm
    · exact within_fixed (by decide)
    · exact within_copyWithLines hname hmem hm
  have hnewline : Gap "\n" := by decide
  rw [classText]
  refine Dart.within_intercalate hnewline (List.forall_mem_append.mpr
    ⟨List.forall_mem_append.mpr ⟨?_, fun line hline => ?_⟩, ?_⟩)
  · exact List.forall_mem_singleton.mpr (within_own hname hmem (by decide) (by decide))
  · -- between the sections stands an empty line
    rcases Text.mem_of_mem_intercalate hline with hline | ⟨lines, hlines, hline⟩
    · obtain rfl := List.mem_singleton.mp hline
      exact within_of_nil (by decide)
    · exact hsections lines (List.mem_of_mem_filter hlines) line hline
  · exact List.forall_mem_singleton.mpr (within_of_nil (by decide))

end Lines

/-! ### The text that has the code -/

theorem infix_between (before part after : String) :
    part.toList <:+: (before ++ part ++ after).toList := by
  rw [String.toList_append, String.toList_append]
  exact List.infix_append _ _ _

theorem infix_intercalate (sep : String) {parts : List String} {part : String} (h : part ∈ parts) :
    part.toList <:+: (sep.intercalate parts).toList := by
  induction parts with
  | nil => contradiction
  | cons first parts ih =>
      by_cases hrest : parts = []
      · subst hrest
        obtain rfl := List.mem_singleton.mp h
        simp
      · rw [String.intercalate_cons_of_ne_nil hrest]
        rcases List.mem_cons.mp h with rfl | h
        · simpa [String.append_assoc] using infix_between "" part (sep ++ sep.intercalate parts)
        · exact (ih h).trans (by simpa using infix_between (first ++ sep) (sep.intercalate parts) "")

section Elements

variable {className : String}

theorem infix_elementFromMap_list {element : Shape} {inner : String}
    (h : elementFromMap className element = some inner) :
    ∃ whole ∈ elementFromMap className (.list element), inner.toList <:+: whole.toList := by
  have hpart := infix_between ("List.from((e as List).where((element) => element != null)" ++
    ".map((e) => ") inner (")" ++ dropUnparsed element ++ ")")
  rw [elementFromMap, h]
  refine ⟨_, rfl, ?_⟩
  simpa only [toString, String.append_assoc] using hpart

/-- The code for the elements of a list has that for the elements of the lists in it. -/
theorem infix_elementFromMap {shape : Shape} : ∀ element ∈ shape.elements,
    ∀ code ∈ elementFromMap className element,
      ∃ whole ∈ elementFromMap className shape, code.toList <:+: whole.toList := by
  induction shape using Shape.unwrapped.induct with
  | case1 element ih =>
      refine List.forall_mem_cons.mpr ⟨fun code hcode => infix_elementFromMap_list hcode, ?_⟩
      intro inner hinner code hcode
      obtain ⟨part, hpart, hwithin⟩ := ih inner hinner code hcode
      obtain ⟨whole, hwhole, hin⟩ := infix_elementFromMap_list hpart
      exact ⟨whole, hwhole, hwithin.trans hin⟩
  | case2 shape hlist =>
      cases shape with
      | list element => exact absurd rfl (hlist element)
      | _ => exact List.forall_mem_nil _

theorem infix_fieldFromMap {shape : Shape} {source : String} : ∀ element ∈ shape.elements,
    ∀ code ∈ elementFromMap className element,
      code.toList <:+: (fieldFromMap className shape source).toList := by
  cases shape with
  | list element =>
      have hdirect : ∀ inner ∈ elementFromMap className element,
          inner.toList <:+: (fieldFromMap className (.list element) source).toList := by
        intro inner hinner
        have hpart := infix_between (source ++ " is List ? List.from((" ++ source ++
          " as List).where((element) => element != null)" ++ ".map((e) => ") inner
          (")" ++ dropUnparsed element ++ ") : null")
        have hsome : elementFromMap className element = some inner := hinner
        unfold fieldFromMap
        dsimp only
        rw [hsome]
        simpa only [toString, String.append_assoc] using hpart
      refine List.forall_mem_cons.mpr ⟨hdirect, fun inner hinner code hcode => ?_⟩
      obtain ⟨part, hpart, hwithin⟩ := infix_elementFromMap inner hinner code hcode
      exact hwithin.trans (hdirect part hpart)
  | _ => exact List.forall_mem_nil _

end Elements

section Text

variable {policy : Policy} {nameOf : Path → String} {options : BodyOptions} {path : Path}
  {node : Fields}

theorem infix_classText {lines : List String} {line : String}
    (hlines : lines ∈ classSections policy nameOf (nameOf path)
      (members policy.kind options path node)) (hline : line ∈ lines) :
    line.toList <:+: (classText policy nameOf options path node).toList := by
  have hkept : lines ∈ (classSections policy nameOf (nameOf path)
      (members policy.kind options path node)).filter fun lines => !lines.isEmpty := by
    refine List.mem_filter.mpr ⟨hlines, ?_⟩
    simp [List.ne_nil_of_mem hline]
  rw [classText]
  refine infix_intercalate _ (List.mem_append_left _ (List.mem_append_right _ ?_))
  exact Text.mem_intercalate hkept hline

variable {f : Field} (hf : f ∈ (members policy.kind options path node).fields)

include hf

theorem infix_fieldType :
    (fieldType nameOf f).toList <:+: (classText policy nameOf options path node).toList := by
  have hsection : declarationLines nameOf (members policy.kind options path node) ∈
      classSections policy nameOf (nameOf path) (members policy.kind options path node) := by
    simp [classSections]
  have hline : "  final " ++ fieldType nameOf f ++ " " ++ f.name ++ ";" ∈
      declarationLines nameOf (members policy.kind options path node) :=
    List.mem_append_right _ (List.mem_map_of_mem hf)
  have hpart : (fieldType nameOf f).toList <:+:
      ("  final " ++ fieldType nameOf f ++ " " ++ f.name ++ ";").toList := by
    simpa only [String.append_assoc] using
      infix_between "  final " (fieldType nameOf f) (" " ++ f.name ++ ";")
  exact hpart.trans (infix_classText hsection hline)

theorem infix_decoded (hreads : policy.kind.readsJson = true) :
    (fieldFromMap (nameOf f.path) f.shape s!"map[{stringLiteral f.key}]").toList <:+:
      (classText policy nameOf options path node).toList := by
  have hsection : fromMapLines nameOf (nameOf path) (members policy.kind options path node).fields ∈
      classSections policy nameOf (nameOf path) (members policy.kind options path node) := by
    simp [classSections, hreads]
  have hfilled : ¬ (members policy.kind options path node).fields.isEmpty = true := by
    simp [List.ne_nil_of_mem hf]
  have hline : "      " ++ f.name ++ ": " ++
      fieldFromMap (nameOf f.path) f.shape s!"map[{stringLiteral f.key}]" ++ "," ∈
        fromMapLines nameOf (nameOf path) (members policy.kind options path node).fields := by
    rw [fromMapLines, if_neg hfilled]
    refine List.mem_append_left _ (List.mem_append_right _ (List.mem_append_left _ ?_))
    exact List.mem_append_right _ (List.mem_map_of_mem hf)
  exact (infix_between _ _ _).trans (infix_classText hsection hline)

/-- The type of a field is in the text of its class, and the decoders are if the class reads maps. -/
theorem infix_of_mem_fieldCode : ∀ code ∈ fieldCode nameOf f,
    code = fieldType nameOf f ∨ policy.kind.readsJson = true →
      code.toList <:+: (classText policy nameOf options path node).toList := by
  rintro code hcode (rfl | hreads)
  · exact infix_fieldType hf
  · rcases List.mem_cons.mp hcode with rfl | hcode
    · exact infix_fieldType hf
    · rcases List.mem_cons.mp hcode with rfl | hcode
      · exact infix_decoded hf hreads
      · obtain ⟨element, helement, hread⟩ := List.mem_filterMap.mp hcode
        exact (infix_fieldFromMap element helement code hread).trans (infix_decoded hf hreads)

end Text

end Model

end DartScaffold

import DartScaffold.Proofs.Model.Closure

/-!
Core names that a class uses, and members of the class that have them. A field is never called like a
keyword or a generated member, but `int`, `double`, `bool` and `json` are none of these: a class whose
types and decoders need one of them has a member of that name exactly if one of its keys or path
parameters is spelled so in camel case (`core_name_shadowed_iff`).
-/

namespace DartScaffold

namespace Dart

/-! ### Core names in code -/

/-- The small names by which a class can refer to types and objects of the core libraries. -/
def coreNames : List String :=
  ["int", "double", "bool", "json"]

def isCoreName (word : List Char) : Bool :=
  coreNames.contains (String.ofList word)

/-- The core names in a piece of code. None of them is the name of a method there, after a dot. -/
def coreNamesIn (code : String) : List String :=
  namesThat isCoreName code

/-- The code ends outside of all literals, and has these core names. -/
structure Uses (code : String) (names : List String) : Prop where
  whole : Whole code
  names : coreNamesIn code = names

instance (code : String) (names : List String) : Decidable (Uses code names) :=
  decidable_of_iff (Whole code ∧ coreNamesIn code = names)
    ⟨fun ⟨whole, names⟩ => ⟨whole, names⟩, fun ⟨whole, names⟩ => ⟨whole, names⟩⟩

section Rules

variable {code gap rest : String} {names more : List String}

theorem Uses.append (h : Uses code names) (hrest : Uses rest more)
    (hapart : isBefore code = true ∨ isAfter rest = true) : Uses (code ++ rest) (names ++ more) where
  whole := h.whole.append hrest.whole
  names := by
    rw [coreNamesIn, namesThat_append rfl h.whole hapart, ← coreNamesIn, ← coreNamesIn, h.names,
      hrest.names]

theorem Uses.before (h : Uses code names) (hgap : Uses gap [] ∧ isBefore gap = true) :
    Uses (gap ++ code) names :=
  hgap.1.append h (.inl hgap.2)

theorem Uses.after (h : Uses code names) (hgap : Uses gap [] ∧ isAfter gap = true) :
    Uses (code ++ gap) names := by
  simpa using h.append hgap.1 (.inr hgap.2)

theorem Uses.around (h : Uses code names) (hgap : Uses gap [] ∧ Gap gap) (hrest : Uses rest more) :
    Uses (code ++ gap ++ rest) (names ++ more) :=
  (h.after ⟨hgap.1, hgap.2.first⟩).append hrest (.inl (hgap.2.isBefore_append code))

theorem uses_typeName (h : IsTypeName code) : Uses code [] := by
  have hchars : ∀ c ∈ code.toList, isNameChar c = true := fun c hc => by
    simp [isNameChar, h.2 c hc]
  obtain ⟨hwhole, hnames⟩ := namesThat_of_forall (p := isCoreName) hchars
  have hcore : isCoreName code.toList = false := by
    refine Bool.eq_false_iff.mpr fun hcore => ?_
    rw [isCoreName, String.ofList_toList, List.contains_iff_mem] at hcore
    have hsmall : ∀ name ∈ coreNames, name.toList.head?.any Char.isUpper = false := by decide
    exact Bool.noConfusion ((hsmall _ hcore).symm.trans h.1)
  exact ⟨hwhole, by rw [coreNamesIn, hnames, hcore]; rfl⟩

theorem uses_stringLiteral (text : String) : Uses (stringLiteral text) [] :=
  ⟨(namesThat_stringLiteral (p := isCoreName) rfl text).1, (namesThat_stringLiteral rfl text).2⟩

end Rules

/-! ### Fields with core names -/

/-- No core name is one that the fields are kept from, nor one that comes of it. -/
theorem coreNames_plain : ∀ name ∈ coreNames, name ∉ keywords ++ generatedMembers ∧ name ≠ "" ∧
    startsWithDigit name = false ∧ ¬ "value".toList <+: name.toList ∧
    ¬ "Value".toList <:+ name.toList ∧ name.toList.getLast?.any Char.isDigit = false := by
  decide

theorem fieldName_mem_coreNames_iff {key name : String} (hname : name ∈ coreNames) :
    fieldName key = name ↔ Text.camelCase key = name := by
  obtain ⟨hword, hne, hdigit, hprefix, hsuffix, -⟩ := coreNames_plain name hname
  rw [fieldName]
  dsimp only
  generalize Text.camelCase key = camel
  -- what is put before or behind a name makes none of these of it
  have hkept : ∀ inner : String, (if keywords.contains inner || generatedMembers.contains inner then
      inner ++ "Value" else inner) = name → inner = name := by
    intro inner h
    split at h
    · subst h
      exact absurd (by simp) hsuffix
    · exact h
  constructor
  · intro h
    split at h
    · subst h
      exact absurd (List.prefix_refl _) hprefix
    · have hinner := hkept _ h
      split at hinner
      · subst hinner
        exact absurd (by simp) hprefix
      · exact hinner
  · rintro rfl
    rw [if_neg hne, hdigit]
    simpa using hword

section Fields

variable {path : Path} {used : List String} {node : Fields} {name : String}

/-- No number is put behind a core name. -/
theorem fieldName_of_mem_coreNames {f : Field} (hf : f ∈ fieldsAt path used node)
    (hname : f.name ∈ coreNames) : fieldName f.key = f.name := by
  obtain ⟨before, after, hsplit⟩ := List.append_of_mem hf
  obtain ⟨tries, -, hcandidate, -⟩ := isFirstUnused_of_fieldsAt path used node hsplit
  cases tries with
  | zero => exact hcandidate.symm
  | succ tries =>
      have hlast : f.name.toList.getLast?.any Char.isDigit = true := by
        rw [hcandidate]
        exact Text.getLast?_numbered _ _
      obtain ⟨-, -, -, -, -, hundigited⟩ := coreNames_plain _ hname
      exact Bool.noConfusion (hlast.symm.trans hundigited)

/-- The name of a key is that of a field unless it is reserved. -/
theorem name_mem_fieldsAt {key : String} (hkey : key ∈ node.map Prod.fst)
    (hreserved : fieldName key ∉ used) :
    fieldName key ∈ (fieldsAt path used node).map Field.name := by
  rw [← entries_fieldsAt path used node, List.map_map] at hkey
  obtain ⟨f, hf, rfl⟩ := List.mem_map.mp hkey
  obtain ⟨before, after, hsplit⟩ := List.append_of_mem hf
  by_cases hearlier : ∃ g ∈ before, g.name = fieldName f.key
  · obtain ⟨g, hg, hsame⟩ := hearlier
    have hmem : g ∈ fieldsAt path used node := hsplit ▸ List.mem_append_left _ hg
    exact hsame ▸ List.mem_map_of_mem hmem
  · have hkept := (isFieldList_fieldsAt path used node).kept before f after hsplit hreserved
      fun g hg hsame => hearlier ⟨g, hg, hsame⟩
    exact hkept ▸ List.mem_map_of_mem hf

end Fields

end Dart

namespace Model

open Dart (Field IsTypeName Uses coreNames coreNamesIn isAfter stringLiteral)

/-- A member of a class has a core name exactly if a path parameter or a key is spelled so. -/
theorem mem_names_iff {kind : Kind} {options : BodyOptions} {path : Path} {node : Fields}
    {name : String} (hname : name ∈ coreNames) :
    name ∈ (members kind options path node).names ↔
      ∃ raw ∈ options.pathParams ++ node.map Prod.fst, Text.camelCase raw = name := by
  have hfixed : name ∉ (members kind options path node).fixed.map Prod.fst := by
    intro hmem
    have hbrought : ∀ member ∈ (members kind options path node).fixed, member.1 ∉ coreNames := by
      refine List.forall_mem_append.mpr ⟨forall_mem_ite ?_, forall_mem_ite ?_⟩
      · exact List.forall_mem_singleton.mpr (by decide)
      · exact List.forall_mem_singleton.mpr (by decide)
    obtain ⟨member, hmember, rfl⟩ := List.mem_map.mp hmem
    exact hbrought member hmember hname
  rw [Members.names, List.append_assoc, List.mem_append, or_iff_right hfixed]
  constructor
  · intro hmem
    rcases List.mem_append.mp hmem with hmem | hmem
    · obtain ⟨raw, hraw, hspelled⟩ := List.mem_map.mp hmem
      exact ⟨raw, List.mem_append_left _ hraw, (Dart.fieldName_mem_coreNames_iff hname).mp hspelled⟩
    · obtain ⟨f, hf, rfl⟩ := List.mem_map.mp hmem
      have hkey : (f.key, f.shape) ∈ node := by
        rw [← Dart.entries_fieldsAt path _ node]
        exact List.mem_map_of_mem hf
      refine ⟨f.key, List.mem_append_right _ (List.mem_map_of_mem hkey), ?_⟩
      exact (Dart.fieldName_mem_coreNames_iff hname).mp (Dart.fieldName_of_mem_coreNames hf hname)
  · rintro ⟨raw, hraw, hspelled⟩
    have hsame := (Dart.fieldName_mem_coreNames_iff hname).mpr hspelled
    rcases List.mem_append.mp hraw with hraw | hkey
    · exact List.mem_append_left _ (hsame ▸ List.mem_map_of_mem hraw)
    · by_cases hparam : name ∈ (members kind options path node).params
      · exact List.mem_append_left _ hparam
      · have hreserved : Dart.fieldName raw ∉ (members kind options path node).fixed.map Prod.fst ++
            (members kind options path node).params := by
          rw [hsame, List.mem_append, not_or]
          exact ⟨hfixed, hparam⟩
        exact List.mem_append_right _ (hsame ▸ Dart.name_mem_fieldsAt hkey hreserved)

/-! ### What types and decoders use -/

/-- The core name of the type of a scalar. -/
def scalarNames : Scalar → List String
  | .int => ["int"]
  | .double => ["double"]
  | .bool => ["bool"]
  | _ => []

/-- The core name by which a scalar is parsed. -/
def parserNames : Scalar → List String
  | .int => ["int"]
  | .double => ["double"]
  | _ => []

/-- The names for the scalar that a shape holds at any depth of lists. -/
def namesFor (names : Scalar → List String) (shape : Shape) : List String :=
  match shape.unwrapped with
  | .scalar kind => names kind
  | _ => []

section Expressions

variable {className : String} {shape : Shape}

theorem uses_scalarType (kind : Scalar) : Uses (scalarType kind) (scalarNames kind) := by
  cases kind <;> decide

theorem uses_dartType (hname : ∀ name ∈ heldClass className shape, IsTypeName name) :
    Uses (dartType className shape) (namesFor scalarNames shape) := by
  induction shape using Shape.unwrapped.induct with
  | case1 element ih => exact ((ih hname).before (by decide)).after (by decide)
  | case2 shape hlist =>
      cases shape with
      | scalar kind => exact uses_scalarType kind
      | list element => exact absurd rfl (hlist element)
      | object fields => exact Dart.uses_typeName (hname className List.mem_cons_self)

theorem uses_nullable {type : String} {names : List String} (h : Uses type names) :
    Uses (nullable type) names := by
  rw [nullable]
  split
  · exact h
  · exact h.after (by decide)

theorem uses_dropUnparsed (element : Shape) :
    Uses (dropUnparsed element) [] ∧ isAfter (dropUnparsed element) = true := by
  rw [dropUnparsed.eq_def]
  split <;> decide

theorem uses_mapped {inner : String} {names : List String} (h : Uses inner names)
    (element : Shape) : Uses (".map((e) => " ++ inner ++ ")" ++ dropUnparsed element) names :=
  ((h.before (by decide)).after (by decide)).after (uses_dropUnparsed element)

/-- Elements that need no conversion are not parsed. -/
theorem namesFor_of_elementFromMap (h : elementFromMap className shape = none) :
    namesFor parserNames shape = [] := by
  cases shape with
  | scalar kind => cases kind <;> first | rfl | contradiction
  | list element =>
      rw [elementFromMap] at h
      split at h <;> contradiction
  | object fields => contradiction

theorem uses_elementFromMap (hname : ∀ name ∈ heldClass className shape, IsTypeName name) :
    ∀ code ∈ elementFromMap className shape, Uses code (namesFor parserNames shape) := by
  induction shape using Shape.unwrapped.induct with
  | case1 element ih =>
      rw [elementFromMap]
      split
      · rename_i inner hinner
        rintro code ⟨⟩
        have hmapped := uses_mapped (ih hname inner hinner) element
        exact (hmapped.after (by decide)).before (by decide)
      · rename_i hnone
        rintro code ⟨⟩
        have hparsed : namesFor parserNames element = [] := namesFor_of_elementFromMap hnone
        show Uses "List.from(e)" (namesFor parserNames element)
        rw [hparsed]
        decide
  | case2 shape hlist =>
      cases shape with
      | scalar kind =>
          rintro code hcode
          cases kind <;> obtain ⟨⟩ := hcode <;> decide
      | list element => exact absurd rfl (hlist element)
      | object fields =>
          rintro code ⟨⟩
          exact (Dart.uses_typeName (hname className List.mem_cons_self)).after (by decide)

theorem uses_fieldFromMap (hname : ∀ name ∈ heldClass className shape, IsTypeName name)
    {source : String} (hsource : Uses source []) :
    Uses (fieldFromMap className shape source) (namesFor parserNames shape) := by
  cases shape with
  | scalar kind =>
      cases kind with
      | int =>
          have hparser : Uses "int.tryParse(" ["int"] := by decide
          exact (hparser.append hsource (.inl (by decide))).after (by decide)
      | double =>
          have hparser : Uses "double.tryParse(" ["double"] := by decide
          exact (hparser.append hsource (.inl (by decide))).after (by decide)
      | datetime => exact (hsource.before (by decide)).after (by decide)
      | bool | string | dynamic => exact hsource
  | list element =>
      unfold fieldFromMap
      dsimp only
      split
      · rename_i inner hinner
        have helement : ∀ code ∈ elementFromMap className element,
            Uses code (namesFor parserNames element) := uses_elementFromMap hname
        have hlist : Uses (source ++ " is List ? List.from((" ++ source) [] :=
          hsource.around (by decide) hsource
        exact hlist.around (by decide) ((uses_mapped (helement inner hinner) element).after (by decide))
      · rename_i hnone
        have hparsed : namesFor parserNames element = [] := namesFor_of_elementFromMap hnone
        show Uses _ (namesFor parserNames element)
        rw [hparsed]
        exact (hsource.around (by decide) hsource).after (by decide)
  | object fields =>
      have hclass := Dart.uses_typeName (hname className List.mem_cons_self)
      exact ((hsource.around (by decide) hclass).around (by decide) hsource).after (by decide)

end Expressions

/-! ### What a class uses -/

/-- The code of a class that refers to the core libraries: the types of its fields and, where it reads
JSON, their decoders and the conversions from and to text. -/
def libraryCode (kind : Kind) (nameOf : Path → String) (path : Path) (fields : List Field) :
    List String :=
  fields.map (fieldType nameOf) ++
    if kind.readsJson then
      fields.map (fun f => fieldFromMap (nameOf f.path) f.shape s!"map[{stringLiteral f.key}]") ++
        (fromJsonLines (nameOf path) ++ toJsonLines)
    else []

/-- The core names in this code. -/
def usedNames (kind : Kind) (nameOf : Path → String) (path : Path) (fields : List Field) :
    List String :=
  (libraryCode kind nameOf path fields).flatMap coreNamesIn

/-- The class of an object needs a core name: that of the converter, or of the type of a scalar in its
fields. -/
def NeedsCore (kind : Kind) (node : Fields) (name : String) : Prop :=
  kind.readsJson = true ∧ name = "json" ∨ ∃ field ∈ node, name ∈ namesFor scalarNames field.2

theorem mem_coreNames_of_mem_coreNamesIn {code name : String} (h : name ∈ coreNamesIn code) :
    name ∈ coreNames := by
  obtain ⟨word, hword, rfl⟩ := List.mem_map.mp h
  exact List.contains_iff_mem.mp (List.mem_filter.mp hword).2

theorem parserNames_subset (shape : Shape) :
    namesFor parserNames shape ⊆ namesFor scalarNames shape := by
  have hscalar : ∀ kind, parserNames kind ⊆ scalarNames kind := by
    intro kind
    cases kind <;> simp [parserNames, scalarNames]
  intro name hname
  rw [namesFor] at hname ⊢
  split at hname
  · rename_i kind hheld
    exact hscalar kind hname
  · contradiction

section Class

variable {nameOf : Path → String} {name : String}

theorem coreNamesIn_fromJsonLines {className : String} (h : IsTypeName className) :
    (fromJsonLines className).flatMap coreNamesIn = ["json"] := by
  have hclass := Dart.uses_typeName h
  have hsignature : Uses ("  factory " ++ className ++ ".fromJson(String source) =>") [] :=
    (hclass.before (by decide)).after (by decide)
  have hdecoded : Uses ".fromMap(json.decode(source));" ["json"] := by decide
  have hbody : Uses ("      " ++ className ++ ".fromMap(json.decode(source));") ["json"] :=
    (hclass.before (by decide)).append hdecoded (.inr (by decide))
  show coreNamesIn ("  factory " ++ className ++ ".fromJson(String source) =>") ++
    (coreNamesIn ("      " ++ className ++ ".fromMap(json.decode(source));") ++ []) = ["json"]
  rw [hsignature.names, hbody.names]
  rfl

theorem coreNamesIn_toJsonLines : toJsonLines.flatMap coreNamesIn = ["json"] := by
  decide

theorem mem_usedNames_iff {path : Path} {fields : List Field} (hclass : IsTypeName (nameOf path))
    (hheld : ∀ f ∈ fields, ∀ name ∈ heldClass (nameOf f.path) f.shape, IsTypeName name)
    (kind : Kind) : name ∈ usedNames kind nameOf path fields ↔
      kind.readsJson = true ∧ name = "json" ∨ ∃ f ∈ fields, name ∈ namesFor scalarNames f.shape := by
  have htype : ∀ f ∈ fields, coreNamesIn (fieldType nameOf f) = namesFor scalarNames f.shape :=
    fun f hf => (uses_nullable (uses_dartType (hheld f hf))).names
  have hdecoder : ∀ f ∈ fields, coreNamesIn (fieldFromMap (nameOf f.path) f.shape
      s!"map[{stringLiteral f.key}]") = namesFor parserNames f.shape := by
    intro f hf
    have hsource : Uses ("map[" ++ stringLiteral f.key ++ "]") [] :=
      ((Dart.uses_stringLiteral f.key).before (by decide)).after (by decide)
    exact (uses_fieldFromMap (hheld f hf) hsource).names
  have htypes : name ∈ (fields.map (fieldType nameOf)).flatMap coreNamesIn ↔
      ∃ f ∈ fields, name ∈ namesFor scalarNames f.shape := by
    rw [List.flatMap_map, List.mem_flatMap]
    exact exists_congr fun f => and_congr_right fun hf => by rw [htype f hf]
  rw [usedNames, libraryCode, List.flatMap_append, List.mem_append, htypes, or_comm]
  cases hreads : kind.readsJson with
  | false => simp
  | true =>
      -- the decoders need no name that the types do not need
      have hdecoders : name ∈ (fields.map fun f => fieldFromMap (nameOf f.path) f.shape
          s!"map[{stringLiteral f.key}]").flatMap coreNamesIn →
            ∃ f ∈ fields, name ∈ namesFor scalarNames f.shape := by
        rw [List.flatMap_map, List.mem_flatMap]
        rintro ⟨f, hf, hname⟩
        rw [hdecoder f hf] at hname
        exact ⟨f, hf, parserNames_subset f.shape hname⟩
      rw [if_pos rfl, List.flatMap_append, List.flatMap_append, coreNamesIn_fromJsonLines hclass,
        coreNamesIn_toJsonLines, List.mem_append]
      constructor
      · rintro ((hname | hjson) | hname)
        · exact .inr (hdecoders hname)
        · exact .inl ⟨rfl, by simpa using hjson⟩
        · exact .inr hname
      · rintro (⟨-, rfl⟩ | hname)
        · exact .inl (.inr (by simp))
        · exact .inr hname

end Class

section Text

variable {policy : Policy} {nameOf : Path → String} {options : BodyOptions} {path : Path}
  {node : Fields}

theorem infix_libraryCode :
    ∀ code ∈ libraryCode policy.kind nameOf path (members policy.kind options path node).fields,
      code.toList <:+: (classText policy nameOf options path node).toList := by
  refine List.forall_mem_append.mpr
    ⟨List.forall_mem_map.mpr fun f hf => infix_fieldType hf, ?_⟩
  split
  · rename_i hreads
    have hsections : ∀ lines ∈ [fromJsonLines (nameOf path), toJsonLines], lines ∈ classSections policy
        nameOf (nameOf path) (members policy.kind options path node) := by
      simp [classSections, hreads]
    obtain ⟨hfrom, hto⟩ := List.forall_mem_cons.mp hsections
    refine List.forall_mem_append.mpr ⟨List.forall_mem_map.mpr fun f hf => infix_decoded hf hreads, ?_⟩
    exact List.forall_mem_append.mpr
      ⟨fun _ => infix_classText hfrom, fun _ => infix_classText (hto _ List.mem_cons_self)⟩
  · exact List.forall_mem_nil _

end Text

/-- The members of the class of an object. -/
def nodeMembers (policy : Policy) (options : BodyOptions) (node : Path × Fields) : Members :=
  members policy.kind (options.at node.1) node.1 node.2

/-- In a file made from a sample on a fresh registry, the class of an object has a member by a core
name that its own code uses exactly if it needs that name, and a path parameter or a key is spelled so
in camel case. The code is found in the class, and the class in the file. -/
theorem core_name_shadowed_iff (api : String) (reserved : List String)
    (entries : List (String × Json)) (policy : Policy) (options : BodyOptions)
    (relativePath : String) :
    let shape := Shape.infer (.obj entries)
    let emitted := emit policy { api, reserved } options relativePath shape
    let nameOf := emitted.2.className policy.kind.artifact
    ∀ node ∈ shape.nodes,
      let m := nodeMembers policy options node
      (∀ code ∈ libraryCode policy.kind nameOf node.1 m.fields,
        code.toList <:+: (nodeText policy emitted.2 options node).toList) ∧
      (nodeText policy emitted.2 options node).toList <:+: emitted.1.content.toList ∧
      ∀ name, name ∈ m.names ∧ name ∈ usedNames policy.kind nameOf node.1 m.fields ↔
        NeedsCore policy.kind node.2 name ∧
          ∃ raw ∈ (options.at node.1).pathParams ++ node.2.map Prod.fst,
            Text.camelCase raw = name := by
  intro shape emitted nameOf node hnode m
  have hshape : shape = .object (Shape.inferFields entries) := by simp only [shape, Shape.infer]
  have hlegal : ∀ node ∈ shape.nodes, IsTypeName (nameOf node.1) := by
    intro node hnode
    obtain ⟨stem, hstem⟩ := ClassName.Registry.covers_ensureNodes { api, reserved } shape.nodes node hnode
    refine ClassName.Registry.isTypeName_className ?_ hstem _
    simp only [hshape]
    exact ClassName.Registry.safe_ensureNodes_object api reserved _
  have hheld : ∀ f ∈ m.fields, ∀ name ∈ heldClass (nameOf f.path) f.shape, IsTypeName name :=
    fun f hf name hname => (held_of_mem_nodeFields hlegal hnode hf name hname).1
  have hfields : ∀ name, (∃ f ∈ m.fields, name ∈ namesFor scalarNames f.shape) ↔
      ∃ field ∈ node.2, name ∈ namesFor scalarNames field.2 := by
    intro name
    have hentries : m.fields.map (fun f => (f.key, f.shape)) = node.2 :=
      Dart.entries_fieldsAt node.1 _ node.2
    rw [← hentries]
    simp
  refine ⟨infix_libraryCode, infix_emit policy _ options relativePath hnode, fun name => ?_⟩
  have hused : name ∈ usedNames policy.kind nameOf node.1 m.fields ↔
      NeedsCore policy.kind node.2 name := by
    rw [mem_usedNames_iff (hlegal node hnode) hheld, hfields, NeedsCore]
  rw [and_comm, hused]
  refine and_congr_right fun hneeds => mem_names_iff ?_
  obtain ⟨code, -, hname⟩ := List.mem_flatMap.mp (hused.mpr hneeds)
  exact mem_coreNames_of_mem_coreNamesIn hname

/-- A text under the key `json`, in a class that reads JSON. -/
theorem core_name_shadowed_json :
    let shape := Shape.infer (.obj [("json", .str "")])
    let emitted := emit { kind := .extra } { api := "get_page" } {} "" shape
    ∃ node ∈ shape.nodes, "json" ∈ (nodeMembers { kind := .extra } {} node).names ∧
      "json" ∈ usedNames .extra (emitted.2.className .extra) node.1
        (nodeMembers { kind := .extra } {} node).fields := by
  intro shape emitted
  have hroot : ([], [("json", .scalar .string)]) ∈ shape.nodes := by decide
  have hshadowed := core_name_shadowed_iff "get_page" ClassName.reserved [("json", .str "")]
    { kind := .extra } {} "" _ hroot
  exact ⟨_, hroot, (hshadowed.2.2 "json").mpr ⟨.inl ⟨rfl, rfl⟩, "json", by decide, by decide⟩⟩

/-- A number under the key `int` gives a field `int` of the type `int`. -/
theorem int_field_shadows_type :
    let shape := Shape.infer (.obj [("int", .int 1)])
    let emitted := emit { kind := .response } { api := "get_user" } {} "" shape
    ∃ node ∈ shape.nodes,
      "int" ∈ (nodeMembers { kind := .response } {} node).fields.map Field.name ∧
        "int" ∈ usedNames .response (emitted.2.className .response) node.1
          (nodeMembers { kind := .response } {} node).fields := by
  decide +kernel

end Model

end DartScaffold

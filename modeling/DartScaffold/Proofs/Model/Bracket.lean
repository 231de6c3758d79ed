import DartScaffold.Model.File
import DartScaffold.Proofs.Dart.Bracket
import DartScaffold.Proofs.Model.Members
import DartScaffold.Proofs.Model.Mention

/-!
The text of a model file is balanced. Decoders and encoders of nested lists have as many parentheses as
the lists have layers, and each layer closes its own. Keys stand in string literals, where their brackets
do not count. The one part of the text that comes from the settings is the call on a date, so that has to
be balanced too.
-/

namespace DartScaffold.Model

open Dart (Field IsPlain Balanced Fills Turns Runs stringLiteral)

/-! ### Expressions -/

section Expressions

variable {className : String}

theorem balanced_scalarType (kind : Scalar) : Balanced (scalarType kind) := by
  cases kind <;> decide

theorem balanced_dartType (hname : Balanced className) (shape : Shape) :
    Balanced (dartType className shape) := by
  induction shape using Shape.unwrapped.induct with
  | case1 element ih => exact ih.inside (by decide)
  | case2 shape hlist =>
      cases shape with
      | scalar kind => exact balanced_scalarType kind
      | list element => exact absurd rfl (hlist element)
      | object fields => exact hname

theorem balanced_nullable {type : String} (h : Balanced type) : Balanced (nullable type) := by
  rw [nullable]
  split
  · exact h
  · exact h.append (by decide)

theorem balanced_dropUnparsed (element : Shape) : Balanced (dropUnparsed element) := by
  rw [dropUnparsed.eq_def]
  split <;> decide

theorem balanced_elementFromMap (hname : Balanced className) (shape : Shape) :
    ∀ code ∈ elementFromMap className shape, Balanced code := by
  induction shape using Shape.unwrapped.induct with
  | case1 element ih =>
      rw [elementFromMap]
      split
      · rename_i inner hinner
        rintro code ⟨⟩
        have hmapped : Fills _ (".map((e) => " ++ inner ++ ")" ++ dropUnparsed element ++ ")") :=
          ((((Fills.fixed _).code (ih inner hinner)).piece _).code
            (balanced_dropUnparsed element)).piece _
        exact ((Fills.fixed _).append hmapped).balanced (by decide)
      · rintro code ⟨⟩
        decide
  | case2 shape hlist =>
      cases shape with
      | scalar kind => cases kind <;> rintro code ⟨⟩ <;> decide
      | list element => exact absurd rfl (hlist element)
      | object fields =>
          rintro code ⟨⟩
          exact hname.append (by decide)

theorem balanced_fieldFromMap (hname : Balanced className) (shape : Shape) {source : String}
    (hsource : Balanced source) : Balanced (fieldFromMap className shape source) := by
  cases shape with
  | scalar kind =>
      cases kind with
      | int | double | datetime =>
          exact hsource.inside (by decide)
      | bool | string | dynamic => exact hsource
  | list element =>
      unfold fieldFromMap
      dsimp only
      split
      · rename_i inner hinner
        have helement := balanced_elementFromMap hname element inner hinner
        have hlist := ((Fills.hole hsource).piece " is List ? List.from((").code hsource
        have hmapped : Fills _ (".map((e) => " ++ inner ++ ")" ++ dropUnparsed element ++ ") : null") :=
          ((((Fills.fixed _).code helement).piece _).code
            (balanced_dropUnparsed element)).piece _
        exact ((hlist.piece _).append hmapped).balanced (by decide)
      · exact ((((Fills.hole hsource).piece _).code hsource).piece _).balanced (by decide)
  | object fields =>
      exact ((((((Fills.hole hsource).piece _).code hname).piece _).code
        hsource).piece _).balanced (by decide)

variable {dateCall : String} (hdate : Balanced dateCall)

include hdate

theorem balanced_elementToMap (shape : Shape) :
    ∀ code ∈ elementToMap dateCall shape, Balanced code := by
  induction shape using Shape.unwrapped.induct with
  | case1 element ih =>
      intro code hcode
      rw [elementToMap] at hcode
      obtain ⟨inner, hinner, rfl⟩ := Option.map_eq_some_iff.mp hcode
      exact (ih inner hinner).inside (by decide)
  | case2 shape hlist =>
      cases shape with
      | scalar kind =>
          cases kind with
          | datetime =>
              rintro code ⟨⟩
              have helement : Balanced "e" := by decide
              exact helement.append hdate
          | _ => rintro code ⟨⟩
      | list element => exact absurd rfl (hlist element)
      | object fields =>
          rintro code ⟨⟩
          decide

theorem balanced_fieldToMap (shape : Shape) {name : String} (hname : Balanced name) :
    Balanced (fieldToMap dateCall shape name) := by
  cases shape with
  | scalar kind =>
      cases kind with
      | datetime => exact (hname.append (by decide)).append hdate
      | _ => exact hname
  | list element =>
      rw [fieldToMap]
      split
      · rename_i inner hinner
        have helement := balanced_elementToMap hdate element inner hinner
        exact ((((Fills.hole hname).piece _).code helement).piece _).balanced (by decide)
      · exact hname
  | object fields => exact hname.append (by decide)

end Expressions

theorem balanced_elementConverted {method : String} (hmethod : Balanced method) (shape : Shape) :
    ∀ code ∈ elementConverted method shape, Balanced code := by
  induction shape using Shape.unwrapped.induct with
  | case1 element ih =>
      intro code hcode
      rw [elementConverted] at hcode
      obtain ⟨inner, hinner, rfl⟩ := Option.map_eq_some_iff.mp hcode
      exact (ih inner hinner).inside (by decide)
  | case2 shape hlist =>
      cases shape with
      | scalar kind => rintro code ⟨⟩
      | list element => exact absurd rfl (hlist element)
      | object fields =>
          rintro code ⟨⟩
          exact hmethod.inside (by decide)

theorem balanced_fieldConverted {method name : String} (hmethod : Balanced method)
    (hname : Balanced name) (shape : Shape) : Balanced (fieldConverted method shape name) := by
  cases shape with
  | scalar kind => exact hname
  | list element =>
      rw [fieldConverted]
      split
      · rename_i inner hinner
        have helement := balanced_elementConverted hmethod element inner hinner
        exact ((((Fills.hole hname).piece _).code helement).piece _).balanced (by decide)
      · exact hname
  | object fields =>
      exact ((((Fills.hole hname).piece _).code hmethod).piece _).balanced (by decide)

/-! ### Sections -/

/-- What members come from outside of the sample: their names and types. -/
structure Members.Balanced (m : Members) : Prop where
  names : ∀ name ∈ m.names, Dart.Balanced name
  types : ∀ member ∈ m.fixed, Dart.Balanced member.2

namespace Members.Balanced

variable {m : Members} (h : m.Balanced)

include h

theorem fixed {member : String × String} (hmember : member ∈ m.fixed) : Dart.Balanced member.1 :=
  h.names _ (List.mem_append_left _ (List.mem_append_left _ (List.mem_map_of_mem hmember)))

theorem param {p : String} (hp : p ∈ m.params) : Dart.Balanced p :=
  h.names _ (List.mem_append_left _ (List.mem_append_right _ hp))

theorem field {f : Field} (hf : f ∈ m.fields) : Dart.Balanced f.name :=
  h.names _ (List.mem_append_right _ (List.mem_map_of_mem hf))

theorem parameter {p : Parameter} (hp : p ∈ m.parameters) : Dart.Balanced p.line := by
  have hname : Dart.Balanced p.name := by
    refine h.names _ ?_
    rw [← names_parameters]
    exact List.mem_map_of_mem hp
  rw [Parameter.line]
  split <;> exact hname.inside (by decide)

end Members.Balanced

theorem balanced_members (kind : Kind) (options : BodyOptions) (path : Path) (node : Fields) :
    (members kind options path node).Balanced := by
  refine ⟨fun name hname => ?_, ?_⟩
  · rw [← names_parameters] at hname
    obtain ⟨p, hp, rfl⟩ := List.mem_map.mp hname
    exact (isPlain_of_mem_parameters hp).balanced
  · refine List.forall_mem_append.mpr ⟨forall_mem_ite ?_, forall_mem_ite ?_⟩
    · exact List.forall_mem_singleton.mpr (by decide)
    · exact List.forall_mem_singleton.mpr (by decide)

section Sections

variable {name : String} (hname : Balanced name) {m : Members} (hm : m.Balanced)
  {nameOf : Path → String} (hnames : ∀ path, Balanced (nameOf path))

include hname hm in
theorem runs_constructorLines : Runs [] (constructorLines name m) [] := by
  rw [constructorLines_parameters]
  split
  · exact (hname.inside (by decide)).runs
  · have hopen : Turns [] ("  const " ++ name ++ "(\x7b") ['\x7d', ')'] :=
      hname.inside (by decide)
    have hclose : Turns ['\x7d', ')'] "  \x7d);" [] := by decide
    exact hopen.runs.around (List.forall_mem_map.mpr fun p hp => hm.parameter hp) hclose.runs

include hname in
theorem runs_fromJsonLines : Runs [] (fromJsonLines name) [] := by
  refine Dart.runs_of_forall (List.forall_mem_cons.mpr ⟨?_, List.forall_mem_singleton.mpr ?_⟩) []
  · exact hname.inside (by decide)
  · exact hname.inside (by decide)

include hnames in
theorem balanced_fieldType (f : Field) : Balanced (fieldType nameOf f) :=
  balanced_nullable (balanced_dartType (hnames f.path) f.shape)

include hname hm hnames in
theorem runs_fromMapLines : Runs [] (fromMapLines nameOf name m.fields) [] := by
  have hentries : ∀ f ∈ m.fields, Balanced ("      " ++ f.name ++ ": " ++
      fieldFromMap (nameOf f.path) f.shape ("map[" ++ stringLiteral f.key ++ "]") ++ ",") := by
    intro f hf
    have hsource : Balanced ("map[" ++ stringLiteral f.key ++ "]") :=
      (Dart.balanced_stringLiteral f.key).inside (by decide)
    have hvalue := balanced_fieldFromMap (hnames f.path) f.shape hsource
    exact (hm.field hf).inside₂ hvalue (by decide)
  have hopen : Turns [] ("  factory " ++ name ++ ".fromMap(Map<String, dynamic> map) \x7b") ['\x7d'] :=
    hname.inside (by decide)
  have hclose : Turns ['\x7d'] "  \x7d" [] := by decide
  rw [fromMapLines]
  refine (hopen.runs.append ?_).append hclose.runs
  split
  · exact (hname.inside (by decide)).runs
  · have hcall : Turns ['\x7d'] ("    return " ++ name ++ "(") [')', '\x7d'] :=
      hname.inside (by decide)
    have hend : Turns [')', '\x7d'] "    );" ['\x7d'] := by decide
    exact hcall.runs.around (List.forall_mem_map.mpr hentries) hend.runs

include hm hnames in
theorem runs_declarationLines : Runs [] (declarationLines nameOf m) [] := by
  refine Dart.runs_of_forall ?_ []
  simp only [declarationLines, List.forall_mem_append, List.forall_mem_map]
  refine ⟨⟨fun member hmember => ?_, fun p hp => ?_⟩, fun f hf => ?_⟩
  · exact (hm.types member hmember).inside₂ (hm.fixed hmember) (by decide)
  · exact (hm.param hp).inside (by decide)
  · exact (balanced_fieldType hnames f).inside₂ (hm.field hf) (by decide)

include hm in
theorem runs_toMapLines {policy : Policy} (hdate : Balanced policy.dateCall) :
    Runs [] (toMapLines policy m.fields) [] := by
  have hfields : ∀ f ∈ m.fields, Balanced ("      " ++ ((if policy.kind.isBody then
      "if (" ++ f.name ++ " != null) " else "") ++ stringLiteral f.key ++ ": " ++
        fieldToMap policy.dateCall f.shape f.name ++ ",")) := by
    intro f hf
    have hguard : Balanced (if policy.kind.isBody then "if (" ++ f.name ++ " != null) " else "") := by
      split
      · exact (hm.field hf).inside (by decide)
      · rfl
    have hvalue := balanced_fieldToMap hdate f.shape (hm.field hf)
    have hentry := ((((Fills.hole hguard).code (Dart.balanced_stringLiteral f.key)).piece ": ").code
      hvalue).piece ","
    exact ((Fills.fixed _).append hentry).balanced (by decide)
  have hopen : Turns [] "  Map<String, dynamic> toMap() \x7b" ['\x7d'] := by decide
  have hclose : Turns ['\x7d'] "  \x7d" [] := by decide
  -- the entry for the raw body goes before those of the fields, and any of them can be missing
  rw [toMapLines]
  dsimp only
  generalize hall : (if policy.kind.isBody then
    ["if (rawBody?.isNotEmpty ?? false) ...rawBody ?? \x7b\x7d,"] else []) ++ _ = entries
  have hentries : ∀ entry ∈ entries, Balanced ("      " ++ entry) := by
    subst hall
    refine List.forall_mem_append.mpr ⟨forall_mem_ite ?_, List.forall_mem_map.mpr hfields⟩
    exact List.forall_mem_singleton.mpr (by decide)
  refine (hopen.runs.append ?_).append hclose.runs
  split
  · exact Turns.runs (by decide)
  · have hmap : Turns ['\x7d'] "    return \x7b" ['\x7d', '\x7d'] := by decide
    have hend : Turns ['\x7d', '\x7d'] "    \x7d;" ['\x7d'] := by decide
    exact hmap.runs.around (List.forall_mem_map.mpr hentries) hend.runs

include hname hm hnames in
theorem runs_copyWithLines : Runs [] (copyWithLines nameOf name m.fields) [] := by
  have hparameters : ∀ f ∈ m.fields,
      Balanced ("    " ++ fieldType nameOf f ++ " " ++ f.name ++ ",") := fun f hf =>
    (balanced_fieldType hnames f).inside₂ (hm.field hf) (by decide)
  have hcopies : ∀ f ∈ m.fields,
      Balanced ("      " ++ f.name ++ ": " ++ f.name ++ " ?? this." ++ f.name ++ ",") := by
    intro f hf
    have hfield := hm.field hf
    exact (((((((Fills.fixed _).code hfield).piece _).code hfield).piece _).code hfield).piece
      _).balanced (by decide)
  have hhead : Turns [] ("  " ++ name ++ " copyWith(\x7b") ['\x7d', ')'] :=
    hname.inside (by decide)
  have hbody : Turns ['\x7d', ')'] "  \x7d) \x7b" ['\x7d'] := by decide
  have hcall : Turns ['\x7d'] ("    return " ++ name ++ "(") [')', '\x7d'] :=
    hname.inside (by decide)
  have hend : Turns [')', '\x7d'] "    );" ['\x7d'] := by decide
  have hclose : Turns ['\x7d'] "  \x7d" [] := by decide
  rw [copyWithLines]
  split
  · have hempty : Turns [] ("  " ++ name ++ " copyWith() \x7b") ['\x7d'] :=
      hname.inside (by decide)
    have hreturn : Turns ['\x7d'] ("    return const " ++ name ++ "();") ['\x7d'] :=
      hname.inside (by decide)
    exact .cons hempty (.cons hreturn hclose.runs)
  · have hsignature := hhead.runs.around (List.forall_mem_map.mpr hparameters) (.cons hbody hcall.runs)
    exact hsignature.around (List.forall_mem_map.mpr hcopies) (.cons hend hclose.runs)

theorem runs_propsLines {names : List String} (h : ∀ name ∈ names, Balanced name) :
    Runs [] (propsLines names) [] := by
  have hlist : Balanced (", ".intercalate names) := Dart.balanced_intercalate (by decide) h
  have hprops : Balanced ("  List<Object?> get props => [" ++ ", ".intercalate names ++ "];") :=
    hlist.inside (by decide)
  exact Dart.runs_of_forall (List.forall_mem_cons.mpr
    ⟨by decide, List.forall_mem_singleton.mpr hprops⟩) []

end Sections

/-! ### Classes -/

theorem runs_ite {c : Bool} {lines : List String} (h : Runs [] lines []) :
    Runs [] (if c then lines else []) [] := by
  split
  · exact h
  · rfl

theorem balanced_classText {policy : Policy} (hdate : Balanced policy.dateCall)
    {nameOf : Path → String} (hnames : ∀ path, Balanced (nameOf path)) (options : BodyOptions)
    (path : Path) (node : Fields) : Balanced (classText policy nameOf options path node) := by
  have hm := balanced_members policy.kind options path node
  have hsections : ∀ lines ∈ classSections policy nameOf (nameOf path)
      (members policy.kind options path node), Runs [] lines [] := by
    simp only [classSections, List.forall_mem_cons]
    refine ⟨runs_constructorLines (hnames path) hm, runs_ite ?_, runs_ite ?_,
      runs_declarationLines hm hnames, runs_ite ?_, runs_ite ?_, runs_ite ?_,
      runs_propsLines hm.names, List.forall_mem_nil _⟩
    · exact runs_fromMapLines (hnames path) hm hnames
    · exact runs_fromJsonLines (hnames path)
    · exact runs_toMapLines hm hdate
    · exact Turns.runs (by decide)
    · exact runs_copyWithLines (hnames path) hm hnames
  have hopen : Turns [] ("class " ++ nameOf path ++ " extends Equatable \x7b") ['\x7d'] :=
    (hnames path).inside (by decide)
  have hclose : Turns ['\x7d'] "\x7d" [] := by decide
  have hbody : Runs [] ([""].intercalate ((classSections policy nameOf (nameOf path)
      (members policy.kind options path node)).filter fun lines => !lines.isEmpty)) [] :=
    Dart.runs_sections fun lines hlines => hsections lines (List.mem_of_mem_filter hlines)
  exact ((hopen.runs.append (hbody.frame _)).append hclose.runs).joinLines

theorem balanced_importLines (kind : Kind) (multipart : Bool) :
    Balanced (Text.joinLines (importLines kind multipart)) := by
  have hlines : ∀ line ∈ importLines kind multipart, Balanced line :=
    List.forall_mem_append.mpr ⟨List.forall_mem_append.mpr
      ⟨forall_mem_ite (by decide), forall_mem_ite (by decide)⟩, by decide⟩
  exact (Dart.runs_of_forall hlines []).joinLines

theorem balanced_content_emit {policy : Policy} (hdate : Balanced policy.dateCall)
    {r : ClassName.Registry} {shape : Shape}
    (hnames : ∀ path, Balanced ((r.ensureNodes shape.nodes).className policy.kind.artifact path))
    (options : BodyOptions) (relativePath : String) :
    Balanced (emit policy r options relativePath shape).1.content := by
  have hclasses : Balanced ("\n\n".intercalate (shape.nodes.map fun node =>
      classText policy ((r.ensureNodes shape.nodes).className policy.kind.artifact)
        (options.at node.1) node.1 node.2)) :=
    Dart.balanced_intercalate (by decide) (List.forall_mem_map.mpr fun node _ =>
      balanced_classText hdate hnames (options.at node.1) node.1 node.2)
  exact ((((Fills.hole (balanced_importLines policy.kind options.multipart)).piece _).code
    hclasses).piece _).balanced (by decide)

end DartScaffold.Model

import DartScaffold.Model.File
import DartScaffold.Proofs.Dart.Field
import DartScaffold.Proofs.Text.Lines

/-!
What a reader sees of a model class: its name and the parameters of its constructor. They stand in the
first lines of the class, before any text that comes from a key, so they can be read whatever the keys
of the sample hold.
-/

namespace DartScaffold.Model

open Dart (IsPlain Field)

structure Declaration where
  name : String
  parameters : List String
  deriving DecidableEq

/-- The name in a line of a constructor, which stands between `this.` and a comma. -/
def parameter? (line : String) : Option String :=
  if "    this.".toList.isPrefixOf line.toList then
    some (String.ofList ((line.toList.drop "    this.".length).takeWhile (· != ',')))
  else none

/-- The names up to the first line without one. -/
def readParameters : List String → List String
  | [] => []
  | line :: rest =>
    match parameter? line with
    | some name => name :: readParameters rest
    | none => []

def readClass (text : String) : Option Declaration :=
  match Text.splitLines text with
  | heading :: opening :: rest =>
    match Text.spaced heading with
    | ["class", name, "extends", "Equatable", "\x7b"] =>
      if opening = "  const " ++ name ++ "();" then some ⟨name, []⟩
      else if opening = "  const " ++ name ++ "(\x7b" then some ⟨name, readParameters rest⟩
      else none
    | _ => none
  | _ => none

/-! ### Lines -/

theorem parameter?_parameter {name : String} (h : IsPlain name) :
    parameter? ("    " ++ ("this." ++ name ++ ",")) = some name := by
  have hline : ("    " ++ ("this." ++ name ++ ",")).toList =
      "    this.".toList ++ (name.toList ++ [',']) := by
    simp
  have hdrop : ("    this.".toList ++ (name.toList ++ [','])).drop "    this.".length =
      name.toList ++ [','] := List.drop_left
  rw [parameter?, hline, if_pos (by simp), hdrop, h.takeWhile_ne (by decide) (by decide) []]

theorem readParameters_append {names : List String} (h : ∀ name ∈ names, IsPlain name)
    {line : String} (hline : parameter? line = none) (rest : List String) :
    readParameters (names.map (fun name => "    " ++ ("this." ++ name ++ ",")) ++ line :: rest) =
      names := by
  induction names with
  | nil => simp [readParameters, hline]
  | cons name names ih =>
      obtain ⟨hname, hnames⟩ := List.forall_mem_cons.mp h
      rw [List.map_cons, List.cons_append, readParameters, parameter?_parameter hname]
      exact congrArg (name :: ·) (ih hnames)

/-! ### Classes -/

theorem parameter?_closing : parameter? "  \x7d);" = none := by decide

theorem members_eq {kind : Kind} (h : kind.isBody = false) (path : Path) (node : Fields) :
    members kind {} path node = ⟨[], [], Dart.fieldsAt path [] node⟩ := by
  simp [members, h]

/-- The declaration of the class for an object, as its constructor has it. -/
def declaration (nameOf : Path → String) (node : Path × Fields) : Declaration :=
  ⟨nameOf node.1, (Dart.fieldsAt node.1 [] node.2).map Field.name⟩

/-- A class starts with its heading and its constructor. -/
theorem classText_eq (policy : Policy) (nameOf : Path → String) (options : BodyOptions)
    (path : Path) (node : Fields) :
    ∃ rest, rest ≠ [] ∧ classText policy nameOf options path node =
      Text.joinLines (("class " ++ nameOf path ++ " extends Equatable \x7b") ::
        (constructorLines (nameOf path) (members policy.kind options path node) ++ rest)) := by
  have hconstructor : ∀ (m : Members) (more : List (List String)),
      (constructorLines (nameOf path) m :: more).filter (fun lines => !lines.isEmpty) =
        constructorLines (nameOf path) m :: more.filter (fun lines => !lines.isEmpty) := by
    intro m more
    refine List.filter_cons_of_pos ?_
    rw [constructorLines]
    dsimp only
    split <;> rfl
  have hfront : ∀ (first : List String) (more : List (List String)),
      ∃ tail, [""].intercalate (first :: more) = first ++ tail := by
    intro first more
    cases more with
    | nil => exact ⟨[], by simp⟩
    | cons next more => exact ⟨_, by rw [List.intercalate_cons_cons, List.append_assoc]⟩
  rw [classText, classSections, hconstructor]
  obtain ⟨tail, htail⟩ := hfront _ _
  rw [htail]
  refine ⟨tail ++ ["\x7d"], by simp, ?_⟩
  rw [Text.joinLines, List.singleton_append, List.cons_append, List.append_assoc]
  rfl

/-- The lines of a constructor without fixed members, by the names of its parameters. -/
theorem constructorLines_eq (name : String) (params : List Field) :
    constructorLines name ⟨[], [], params⟩ =
      if params.map Field.name = [] then ["  const " ++ name ++ "();"]
      else ("  const " ++ name ++ "(\x7b") ::
        ((params.map Field.name).map (fun param => "    " ++ ("this." ++ param ++ ",")) ++
          ["  \x7d);"]) := by
  cases params with
  | nil => rfl
  | cons first params => simp [constructorLines, Function.comp_def, toString]

theorem spaced_classHeading {name : String} (h : IsPlain name) :
    Text.spaced ("class " ++ name ++ " extends Equatable \x7b") =
      ["class", name, "extends", "Equatable", "\x7b"] := by
  have hline : "class " ++ name ++ " extends Equatable \x7b" =
      " ".intercalate ["class", name, "extends", "Equatable", "\x7b"] := by
    simp [← String.toList_inj]
  rw [hline]
  exact Text.spaced_intercalate (by simp) (by simp [h.space_not_mem])

theorem readClass_constructor {name : String} (hname : IsPlain name) {params : List Field}
    (hparams : ∀ param ∈ params.map Field.name, IsPlain param) {rest : List String}
    (hrest : rest ≠ []) :
    readClass (Text.joinLines (("class " ++ name ++ " extends Equatable \x7b") ::
      (constructorLines name ⟨[], [], params⟩ ++ rest))) =
        some ⟨name, params.map Field.name⟩ := by
  have hnewline := hname.newline_not_mem
  have hheading := spaced_classHeading hname
  have hfront : ∀ line ∈ ("class " ++ name ++ " extends Equatable \x7b") ::
      constructorLines name ⟨[], [], params⟩, '\n' ∉ line.toList := by
    rw [constructorLines_eq]
    refine List.forall_mem_cons.mpr ⟨by simp [hnewline], ?_⟩
    split
    · simp [hnewline]
    · have hlines : ∀ param ∈ params.map Field.name, '\n' ∉ param.toList :=
        fun param hparam => (hparams param hparam).newline_not_mem
      simp only [List.forall_mem_cons, List.forall_mem_append, List.forall_mem_map] at hlines ⊢
      exact ⟨by simp [hnewline], fun f hf => by simp [hlines f hf], by decide, by simp⟩
  rw [← List.cons_append, readClass, Text.splitLines_joinLines_append hrest hfront,
    constructorLines_eq]
  -- without parameters the constructor is one line
  by_cases hempty : params.map Field.name = []
  · rw [if_pos hempty, hempty]
    simp [hheading]
  · rw [if_neg hempty]
    have hopening : "  const " ++ name ++ "(\x7b" ≠ "  const " ++ name ++ "();" := by
      intro heq
      have hsame := String.append_right_inj _ |>.mp heq
      exact absurd hsame (by decide)
    have hread := readParameters_append hparams parameter?_closing
      (Text.splitLines (Text.joinLines rest))
    simp only [List.cons_append, List.append_assoc, List.nil_append, hheading, if_neg hopening,
      if_true, hread]

theorem readClass_classText {policy : Policy} (hkind : policy.kind.isBody = false)
    {nameOf : Path → String} {node : Path × Fields} (hname : IsPlain (nameOf node.1)) :
    readClass (classText policy nameOf {} node.1 node.2) = some (declaration nameOf node) := by
  obtain ⟨rest, hrest, htext⟩ := classText_eq policy nameOf {} node.1 node.2
  have hfields : ∀ name ∈ (Dart.fieldsAt node.1 [] node.2).map Field.name, IsPlain name := by
    intro name hmem
    obtain ⟨f, hf, rfl⟩ := List.mem_map.mp hmem
    exact Dart.isPlain_of_mem_fieldsAt hf
  rw [htext, members_eq hkind]
  exact readClass_constructor hname hfields hrest

/-! ### Files -/

/-- The classes of a file, as their constructors have them. -/
structure File.Declares (file : File) (declarations : List Declaration) : Prop where
  classNames : file.classNames = declarations.map Declaration.name
  content : ∃ (header : String) (classes : List String),
    file.content = header ++ "\n\n".intercalate classes ++ "\n" ∧
      classes.map readClass = declarations.map some

theorem declares_emit {policy : Policy} (hkind : policy.kind.isBody = false)
    (r : ClassName.Registry) (relativePath : String) (shape : Shape)
    (hnames : ∀ node ∈ shape.nodes,
      IsPlain ((r.ensureNodes shape.nodes).className policy.kind.artifact node.1)) :
    (emit policy r {} relativePath shape).1.Declares
      (shape.nodes.map
        (declaration ((r.ensureNodes shape.nodes).className policy.kind.artifact))) := by
  refine ⟨by simp [emit, declaration], ?_⟩
  refine ⟨_, _, rfl, ?_⟩
  rw [List.map_map, List.map_map]
  refine List.map_congr_left fun node hnode => ?_
  have hoptions : BodyOptions.at {} node.1 = {} := by
    rw [BodyOptions.at]
    split <;> rfl
  have hread := readClass_classText hkind (hnames node hnode)
  simp only [Function.comp_def, hoptions, hread]

end DartScaffold.Model

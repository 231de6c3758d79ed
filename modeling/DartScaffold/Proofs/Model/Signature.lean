import DartScaffold.Proofs.Aggregate.Marker
import DartScaffold.Proofs.Model.Declaration

/-!
The constructors of all classes, those of request bodies included: which parameters a call may give, and
which of them it has to give. As in a declaration they are read from the first lines of the class.
-/

namespace DartScaffold.Model

open Dart (IsPlain Field)

structure Parameter where
  name : String
  required : Bool
  deriving DecidableEq, Repr

structure Signature where
  name : String
  parameters : List Parameter
  deriving DecidableEq, Repr

def optionalHead : String := "    this."

def requiredHead : String := "    required this."

/-- The name after `head` in a line, up to the comma. -/
def nameAfter? (head line : String) : Option String :=
  (Aggregate.after? head.toList line.toList).map fun s => String.ofList (s.takeWhile (· != ','))

def anyParameter? (line : String) : Option Parameter :=
  match nameAfter? requiredHead line with
  | some name => some ⟨name, true⟩
  | none => (nameAfter? optionalHead line).map fun name => ⟨name, false⟩

/-- The parameters up to the first line without one. -/
def readAnyParameters : List String → List Parameter
  | [] => []
  | line :: rest =>
    match anyParameter? line with
    | some parameter => parameter :: readAnyParameters rest
    | none => []

def readSignature (text : String) : Option Signature :=
  match Text.splitLines text with
  | heading :: opening :: rest =>
    match Text.spaced heading with
    | ["class", name, "extends", "Equatable", "\x7b"] =>
      if opening = "  const " ++ name ++ "();" then some ⟨name, []⟩
      else if opening = "  const " ++ name ++ "(\x7b" then some ⟨name, readAnyParameters rest⟩
      else none
    | _ => none
  | _ => none

/-! ### Lines -/

def Parameter.line (p : Parameter) : String :=
  (if p.required then requiredHead else optionalHead) ++ p.name ++ ","

theorem nameAfter?_append {name : String} (h : IsPlain name) (head : String) :
    nameAfter? head (head ++ name ++ ",") = some name := by
  have hafter : Aggregate.after? head.toList (head ++ name ++ ",").toList =
      some (name.toList ++ [',']) :=
    Aggregate.after?_eq_some_iff.mpr (by simp)
  rw [nameAfter?, hafter, Option.map_some, h.takeWhile_ne (by decide) (by decide)]

theorem anyParameter?_line {p : Parameter} (h : IsPlain p.name) : anyParameter? p.line = some p := by
  obtain ⟨name, required⟩ := p
  have hname := nameAfter?_append h
  cases required with
  | true => simp only [Parameter.line, if_true, anyParameter?, hname]
  | false =>
      have hnot : nameAfter? requiredHead (optionalHead ++ name ++ ",") = none := by
        simp [nameAfter?, requiredHead, optionalHead, Aggregate.after?]
      simp only [Parameter.line, anyParameter?, Bool.false_eq_true, if_false, hnot, hname,
        Option.map_some]

theorem readAnyParameters_append {parameters : List Parameter}
    (h : ∀ p ∈ parameters, IsPlain p.name) {line : String} (hline : anyParameter? line = none)
    (rest : List String) :
    readAnyParameters (parameters.map Parameter.line ++ line :: rest) = parameters := by
  induction parameters with
  | nil => simp [readAnyParameters, hline]
  | cons p parameters ih =>
      obtain ⟨hp, hparameters⟩ := List.forall_mem_cons.mp h
      rw [List.map_cons, List.cons_append, readAnyParameters, anyParameter?_line hp]
      exact congrArg (p :: ·) (ih hparameters)

/-! ### Classes -/

/-- The parameters of a constructor: a path parameter has to be given, nothing else. -/
def Members.parameters (m : Members) : List Parameter :=
  m.fixed.map (fun member => ⟨member.1, false⟩) ++ m.params.map (⟨·, true⟩) ++
    m.fields.map (fun f => ⟨f.name, false⟩)

theorem constructorLines_parameters (name : String) (m : Members) :
    constructorLines name m =
      if m.parameters = [] then ["  const " ++ name ++ "();"]
      else ("  const " ++ name ++ "(\x7b") :: (m.parameters.map Parameter.line ++ ["  \x7d);"]) := by
  obtain ⟨fixed, params, fields⟩ := m
  by_cases hempty : fixed = [] ∧ params = [] ∧ fields = []
  · obtain ⟨rfl, rfl, rfl⟩ := hempty
    rfl
  · simp [constructorLines, Members.parameters, Parameter.line, requiredHead, optionalHead,
      Function.comp_def, toString, hempty, ← String.append_assoc]

theorem isPlain_of_mem_parameters {kind : Kind} {options : BodyOptions} {path : Path} {node : Fields}
    {p : Parameter} (h : p ∈ (members kind options path node).parameters) : IsPlain p.name := by
  simp only [Members.parameters, members, List.mem_append, List.mem_map] at h
  rcases h with (⟨member, hmember, rfl⟩ | ⟨name, ⟨raw, -, rfl⟩, rfl⟩) | ⟨f, hf, rfl⟩
  · rcases hmember with hmember | hmember
    · split at hmember
      · obtain rfl := List.mem_singleton.mp hmember
        decide
      · simp at hmember
    · split at hmember
      · obtain rfl := List.mem_singleton.mp hmember
        decide
      · simp at hmember
  · exact Dart.isPlain_fieldName raw
  · exact Dart.isPlain_of_mem_fieldsAt hf

/-- The constructor of the class for an object. -/
def signature (policy : Policy) (nameOf : Path → String) (options : BodyOptions)
    (node : Path × Fields) : Signature :=
  ⟨nameOf node.1, (members policy.kind (options.at node.1) node.1 node.2).parameters⟩

theorem readSignature_classText {policy : Policy} {nameOf : Path → String} {options : BodyOptions}
    {path : Path} {node : Fields} (hname : IsPlain (nameOf path)) :
    readSignature (classText policy nameOf options path node) =
      some ⟨nameOf path, (members policy.kind options path node).parameters⟩ := by
  obtain ⟨rest, hrest, htext⟩ := classText_eq policy nameOf options path node
  have hplain : ∀ p ∈ (members policy.kind options path node).parameters, IsPlain p.name :=
    fun p => isPlain_of_mem_parameters
  have hheading := spaced_classHeading hname
  have hnewline := hname.newline_not_mem
  generalize (members policy.kind options path node) = m at hplain htext ⊢
  have hfront : ∀ line ∈ ("class " ++ nameOf path ++ " extends Equatable \x7b") ::
      constructorLines (nameOf path) m, '\n' ∉ line.toList := by
    rw [constructorLines_parameters]
    refine List.forall_mem_cons.mpr ⟨by simp [hnewline], ?_⟩
    split
    · simp [hnewline]
    · simp only [List.forall_mem_cons, List.forall_mem_append, List.forall_mem_map]
      refine ⟨by simp [hnewline], fun p hp => ?_, by decide, by simp⟩
      have hparameter := (hplain p hp).newline_not_mem
      rw [Parameter.line]
      split <;> simp [requiredHead, optionalHead, hparameter]
  rw [htext, ← List.cons_append, readSignature, Text.splitLines_joinLines_append hrest hfront,
    constructorLines_parameters]
  -- without parameters the constructor is one line
  by_cases hempty : m.parameters = []
  · rw [if_pos hempty, hempty]
    simp [hheading]
  · rw [if_neg hempty]
    have hopening : "  const " ++ nameOf path ++ "(\x7b" ≠ "  const " ++ nameOf path ++ "();" := by
      intro heq
      have hsame := String.append_right_inj _ |>.mp heq
      exact absurd hsame (by decide)
    have hclosing : anyParameter? "  \x7d);" = none := by decide
    have hread := readAnyParameters_append hplain hclosing (Text.splitLines (Text.joinLines rest))
    simp only [List.cons_append, List.append_assoc, List.nil_append, hheading, if_neg hopening,
      if_true, hread]

/-! ### Files -/

/-- The constructors of a file, class by class. -/
structure File.Constructs (file : File) (signatures : List Signature) : Prop where
  classNames : file.classNames = signatures.map Signature.name
  content : ∃ (header : String) (classes : List String),
    file.content = header ++ "\n\n".intercalate classes ++ "\n" ∧
      classes.map readSignature = signatures.map some

theorem constructs_emit (policy : Policy) (r : ClassName.Registry) (options : BodyOptions)
    (relativePath : String) (shape : Shape)
    (hnames : ∀ node ∈ shape.nodes,
      IsPlain ((r.ensureNodes shape.nodes).className policy.kind.artifact node.1)) :
    (emit policy r options relativePath shape).1.Constructs
      (shape.nodes.map
        (signature policy ((r.ensureNodes shape.nodes).className policy.kind.artifact) options)) := by
  refine ⟨by simp [emit, signature], ?_⟩
  refine ⟨_, _, rfl, ?_⟩
  rw [List.map_map, List.map_map]
  refine List.map_congr_left fun node hnode => ?_
  obtain ⟨path, fields⟩ := node
  have hread := @readSignature_classText policy _ (options.at path) path fields (hnames _ hnode)
  simp only [Function.comp_def, hread, signature]

end DartScaffold.Model

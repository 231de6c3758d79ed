import DartScaffold.ModelTest.File
import DartScaffold.Proofs.Dart.Expression
import DartScaffold.Proofs.Mapper.Block
import DartScaffold.Proofs.Model.Signature
import DartScaffold.Proofs.Shape.Conform

/-!
Generated tests fit the generated classes. A test writes its sample as calls of constructors, which the
test works out on its own, from the shape and the value together. Read back, each call is one of the class
that the model file has for the object, gives the path parameters of the URL and exactly the fields that
have a value, and the map that the test expects has the keys that the class writes.
-/

namespace DartScaffold

open Dart (Expr Reads ReadsLabelled IsWord IsPlain)

namespace ModelTest

/-! ### Fitting -/

/-- What a test is held to: the prefix under which it imports the model file, and the classes of that
file with the objects that they were made for. -/
structure Target where
  qualifier : String
  kind : Model.Kind
  options : Model.BodyOptions
  classes : List ((Path × Fields) × Model.Signature)

/-- The names of the fields of an object in its class. -/
def Target.fieldNames (t : Target) (path : Path) (fields : Fields) : List String :=
  (Model.members t.kind (t.options.at path) path fields).fields.map Dart.Field.name

/-- The value of a key; a key that is not there has none. -/
def valueAt (entries : Entries) (key : String) : Json :=
  (entries.get? key).getD .null

mutual

/-- An expression that builds the model of a value. -/
def Fits (t : Target) (path : Path) : Shape → Json → Expr → Prop
  | .object fields, .obj entries, .call callee args =>
    (∃ s, ((path, fields), s) ∈ t.classes ∧ callee = t.qualifier ++ "." ++ s.name ∧
      (args.map Prod.fst).Sublist (s.parameters.map Model.Parameter.name)) ∧
    (∀ raw ∈ (t.options.at path).pathParams, (Dart.fieldName raw, Expr.string raw) ∈ args) ∧
    FieldsFit t path args entries fields (t.fieldNames path fields)
  | .list element, .arr items, .list es => List.Forall₂ (Fits t path element) items es
  | .scalar .datetime, .str text, e => e = .date text
  | .scalar kind, value, e => kind ≠ .datetime ∧ e = .ofJson .typed value
  | _, _, _ => False

/-- Each field, by its name in the class, is given exactly when its key has a value, and what is given
builds the model of that value. -/
def FieldsFit (t : Target) (path : Path) (args : List (String × Expr)) (entries : Entries) :
    List (String × Shape) → List String → Prop
  | (key, shape) :: rest, name :: names =>
    (name ∈ args.map Prod.fst ↔ valueAt entries key ≠ .null) ∧
    (∀ e, (name, e) ∈ args → Fits t (path ++ [key]) shape (valueAt entries key) e) ∧
    FieldsFit t path args entries rest names
  | [], [] => True
  | _, _ => False

end

/-- The keys that an object has in a map: all of them, or in a body those that have a value. -/
def keptKeys (kind : Model.Kind) (entries : Entries) (fields : Fields) : List String :=
  (fields.map Prod.fst).filter fun key => !kind.isBody || valueAt entries key != .null

mutual

/-- An expression for the map that the model of a value turns into. -/
def Encodes (kind : Model.Kind) : Shape → Json → Expr → Prop
  | _, .null, e => e = .word "null"
  | .object fields, .obj entries, .map .plain items =>
    items.map Prod.fst = keptKeys kind entries fields ∧ EntriesEncode kind items entries fields
  | .list element, .arr items, .list es => List.Forall₂ (Encodes kind element) items es
  | .scalar .datetime, .str text, e => e = .date text
  | .scalar scalar, value, e => scalar ≠ .datetime ∧ e = .ofJson .typed value
  | _, _, _ => False

def EntriesEncode (kind : Model.Kind) (items : List (String × Expr)) (entries : Entries) :
    List (String × Shape) → Prop
  | [] => True
  | (key, shape) :: rest =>
    (∀ e, (key, e) ∈ items → Encodes kind shape (valueAt entries key) e) ∧
    EntriesEncode kind items entries rest

end

theorem exists_forall₂ {α β γ : Type} {R : α → β → Prop} {S : γ → β → Prop} {f : γ → α}
    {items : List γ} (h : ∀ item ∈ items, ∃ e, R (f item) e ∧ S item e) :
    ∃ es, List.Forall₂ R (items.map f) es ∧ List.Forall₂ S items es := by
  induction items with
  | nil => exact ⟨[], .nil, .nil⟩
  | cons item rest ih =>
      obtain ⟨⟨e, hr, hs⟩, hrest⟩ := List.forall_mem_cons.mp h
      obtain ⟨es, hreads, hfits⟩ := ih hrest
      exact ⟨e :: es, .cons hr hreads, .cons hs hfits⟩

/-! ### Models -/

section Models

variable {t : Target} {path : Path}

/-- Arguments for other parameters make no difference. -/
theorem FieldsFit.append {front args : List (String × Expr)} {entries : Entries} {fields : Fields}
    {names : List String} (h : FieldsFit t path args entries fields names)
    (hfront : ∀ name ∈ names, name ∉ front.map Prod.fst) :
    FieldsFit t path (front ++ args) entries fields names := by
  induction fields generalizing names with
  | nil =>
      cases names with
      | nil => trivial
      | cons name names => simp [FieldsFit] at h
  | cons field rest ih =>
      obtain ⟨key, shape⟩ := field
      cases names with
      | nil => simp [FieldsFit] at h
      | cons name names =>
          rw [FieldsFit] at h
          obtain ⟨hname, hnames⟩ := List.forall_mem_cons.mp hfront
          refine ⟨?_, fun e he => ?_, ih h.2.2 hnames⟩
          · rw [List.map_append, List.mem_append, or_iff_right hname]
            exact h.1
          · refine h.2.1 e ((List.mem_append.mp he).resolve_left fun hmem => ?_)
            exact hname (List.mem_map_of_mem hmem)

end Models

/-- The names that calls are made of can be read back, and no class is taken for a date. -/
structure Classes.Legible (c : Classes) (nodes : List (Path × Fields)) : Prop where
  qualifier : IsPlain c.qualifier
  callee : ∀ name, c.qualifier ++ "." ++ name ≠ Dart.dateCallee
  names : ∀ node ∈ nodes, IsPlain (c.nameOf node.1)

/-- The classes of these objects, as a model file has them. -/
def Classes.target (c : Classes) (options : Model.BodyOptions) (nodes : List (Path × Fields)) :
    Target :=
  { qualifier := c.qualifier
    kind := c.policy.kind
    options
    classes := nodes.map fun node => (node, Model.signature c.policy c.nameOf options node) }

section Literals

variable {c : Classes} {options : Model.BodyOptions} {nodes : List (Path × Fields)}

/-- The arguments for the path parameters: each has its name in the URL as value. -/
def paramArgs (options : Model.BodyOptions) : List (String × Expr) :=
  options.pathParams.map fun raw => (Dart.fieldName raw, .string raw)

theorem reads_paramArgs (options : Model.BodyOptions) :
    List.Forall₂ (ReadsLabelled "" id)
      (options.pathParams.map fun raw => Dart.fieldName raw ++ ": " ++ Dart.stringLiteral raw)
      (paramArgs options) := by
  rw [paramArgs, List.forall₂_map_left_iff, List.forall₂_map_right_iff, List.forall₂_same]
  exact fun raw _ => ⟨_, rfl, Dart.reads_string raw⟩

theorem isWord_fieldName (key : String) : IsWord (Dart.fieldName key) :=
  ⟨Dart.fieldName_ne key, (Dart.isPlain_fieldName key).inWord⟩

theorem isWord_of_mem_fieldNames (t : Target) (path : Path) (fields : Fields) :
    ∀ name ∈ t.fieldNames path fields, IsWord name := by
  intro name hname
  obtain ⟨f, hf, rfl⟩ := List.mem_map.mp hname
  exact ⟨Dart.name_ne_of_mem_fieldsAt _ _ _ f hf, (Dart.isPlain_of_mem_fieldsAt hf).inWord⟩

theorem nodup_fieldNames (t : Target) (path : Path) (fields : Fields) :
    (t.fieldNames path fields).Nodup :=
  Dart.nodup_names_fieldsAt _ _ _

theorem length_fieldNames (t : Target) (path : Path) (fields : Fields) :
    (t.fieldNames path fields).length = fields.length := by
  rw [Target.fieldNames, List.length_map]
  exact Dart.length_fieldsAt _ _ _

/-- No field has the name of a path parameter. -/
theorem not_mem_paramArgs (t : Target) (path : Path) (fields : Fields) :
    ∀ name ∈ t.fieldNames path fields, name ∉ (paramArgs (t.options.at path)).map Prod.fst := by
  intro name hname hmem
  obtain ⟨f, hf, rfl⟩ := List.mem_map.mp hname
  refine Dart.name_not_mem_of_mem_fieldsAt _ _ _ f hf (List.mem_append_right _ ?_)
  simpa [paramArgs, Function.comp_def] using hmem

/-- The call for an object, from the arguments for its fields. -/
theorem fits_call (hc : c.Legible nodes) {path : Path} {fields : Fields}
    (hmem : (path, fields) ∈ nodes) {entries : Entries} {texts : List String}
    {args : List (String × Expr)} (hreads : List.Forall₂ (ReadsLabelled "" id) texts args)
    (hnames : (args.map Prod.fst).Sublist ((c.target options nodes).fieldNames path fields))
    (hfits : FieldsFit (c.target options nodes) path args entries fields
      ((c.target options nodes).fieldNames path fields)) :
    let front := (options.at path).pathParams.map fun raw =>
      Dart.fieldName raw ++ ": " ++ Dart.stringLiteral raw
    ∃ e, Reads "" (constructorCall c path (front ++ texts)) e ∧
      Fits (c.target options nodes) path (.object fields) (.obj entries) e := by
  intro front
  let t := c.target options nodes
  have hplain : IsPlain (c.qualifier ++ "." ++ c.nameOf path) :=
    (hc.qualifier.append (by decide)).append (hc.names _ hmem)
  refine ⟨.call (c.qualifier ++ "." ++ c.nameOf path) (paramArgs (options.at path) ++ args),
    Dart.reads_call ⟨by simp, hplain.inWord⟩ (hc.callee _) ?_
      (List.rel_append (reads_paramArgs _) hreads), ⟨_, List.mem_map_of_mem hmem, rfl, ?_⟩,
    fun raw hraw => List.mem_append_left _ (List.mem_map_of_mem hraw),
    hfits.append (not_mem_paramArgs t path fields)⟩
  · refine List.forall_mem_append.mpr ⟨?_, fun arg harg => ?_⟩
    · exact List.forall_mem_map.mpr fun raw _ => isWord_fieldName raw
    · exact isWord_of_mem_fieldNames t path fields _ (hnames.subset (List.mem_map_of_mem harg))
  · -- the constructor has the path parameters before the fields as well
    have hparameters : (Model.signature c.policy c.nameOf options (path, fields)).parameters.map
        Model.Parameter.name = (Model.members c.policy.kind (options.at path) path fields).fixed.map
          Prod.fst ++ ((paramArgs (options.at path)).map Prod.fst ++ t.fieldNames path fields) := by
      simp [Model.signature, Model.Members.parameters, Model.members, paramArgs, t, Target.fieldNames,
        Classes.target, Function.comp_def]
    rw [hparameters, List.map_append]
    exact (hnames.append_left _).trans (List.sublist_append_right _ _)

theorem at_of_ne {path : Path} (h : path ≠ []) : options.at path = {} := by
  rw [Model.BodyOptions.at, if_neg (by simpa using h)]

theorem reads_dateLiteral (d text : String) : Reads d (dateLiteral text ++ d) (.date text) :=
  Dart.reads_date text

theorem fits_scalar (t : Target) (path : Path) {kind : Scalar} (h : kind ≠ .datetime) (value : Json) :
    ∃ e, Reads "" (valueLiteral c path (.scalar kind) value) e ∧
      Fits t path (.scalar kind) value e := by
  refine ⟨.ofJson .typed value, ?_⟩
  have hread := Dart.reads_literal "" .typed value
  cases kind with
  | datetime => contradiction
  | _ => simpa [valueLiteral, Fits] using hread

theorem fits_list {t : Target} {path : Path} {element : Shape} {items : List Json}
    (h : ∀ item ∈ items, ∃ e, Reads "" (valueLiteral c path element item) e ∧
      Fits t path element item e) :
    ∃ e, Reads "" (valueLiteral c path (.list element) (.arr items)) e ∧
      Fits t path (.list element) (.arr items) e := by
  obtain ⟨es, hreads, hfits⟩ := exists_forall₂ h
  refine ⟨.list es, ?_, hfits⟩
  rw [valueLiteral]
  exact Dart.reads_list hreads

/-- The objects of a sample: those in the fields of one of them are among them. -/
def Closed (nodes : List (Path × Fields)) : Prop :=
  ∀ node ∈ nodes, ∀ field ∈ node.2, ∀ inner, field.2.unwrapped = .object inner →
    (node.1 ++ [field.1], inner) ∈ nodes

/-- Each field of an object has a value that conforms to its shape. -/
def Conforming (entries : Entries) (fields : Fields) : Prop :=
  ∀ field ∈ fields, ∃ value, valueAt entries field.1 = field.2.conform value

theorem conforming_conformFields {fields : Fields} (hkeys : (fields.map Prod.fst).Nodup)
    (entries : Entries) : Conforming (Shape.conformFields fields entries) fields := by
  intro field hfield
  refine ⟨(entries.get? field.1).getD .null, ?_⟩
  rw [valueAt, Shape.get?_conformFields hkeys hfield, Option.getD_some]

theorem fieldArgs_of_null {path : Path} {key : String} {shape : Shape} {rest : Fields} {name : String}
    {names : List String} {entries : Entries} (h : valueAt entries key = .null) :
    fieldArgs c path ((key, shape) :: rest) (name :: names) entries =
      fieldArgs c path rest names entries := by
  rw [valueAt] at h
  simp only [fieldArgs, h]

theorem fieldArgs_of_ne {path : Path} {key : String} {shape : Shape} {rest : Fields} {name : String}
    {names : List String} {entries : Entries} (h : valueAt entries key ≠ .null) :
    fieldArgs c path ((key, shape) :: rest) (name :: names) entries =
      (name ++ ": " ++ valueLiteral c (path ++ [key]) shape (valueAt entries key)) ::
        fieldArgs c path rest names entries := by
  rw [fieldArgs]
  split
  · contradiction
  · rfl

mutual

/-- Shape and value are walked together: what is written for a value builds its model. -/
theorem exists_fits (hc : c.Legible nodes) (hclosed : Closed nodes) (path : Path) (hpath : path ≠ [])
    (shape : Shape) (hkeys : shape.KeysDistinct)
    (hmem : ∀ inner, shape.unwrapped = .object inner → (path, inner) ∈ nodes)
    (value : Json) (hvalue : shape.conform value ≠ .null) :
    ∃ e, Reads "" (valueLiteral c path shape (shape.conform value)) e ∧
      Fits (c.target options nodes) path shape (shape.conform value) e := by
  match shape with
  | .scalar kind =>
      by_cases hdate : kind = .datetime
      · subst hdate
        obtain ⟨text, htext⟩ := Shape.conform_datetime hvalue
        rw [htext, valueLiteral]
        have hread := reads_dateLiteral "" text
        rw [String.append_empty] at hread
        exact ⟨.date text, hread, rfl⟩
      · exact fits_scalar _ path hdate _
  | .list element =>
      obtain ⟨items, hitems, hkind⟩ := Shape.conform_list hvalue
      rw [hitems]
      refine fits_list fun item hitem => ?_
      rcases hkind with rfl | hconform
      · exact fits_scalar _ path (by decide) item
      · obtain ⟨hne, origin, rfl⟩ := hconform item hitem
        exact exists_fits hc hclosed path hpath element hkeys hmem origin hne
  | .object fields =>
      rw [Shape.KeysDistinct] at hkeys
      obtain ⟨entries, hentries⟩ := Shape.conform_object hvalue
      have hnode := hmem fields rfl
      let t := c.target options nodes
      obtain ⟨args, hreads, hsublist, hfits⟩ := exists_fieldsFit hc hclosed path fields hkeys.2
        (fun field => hclosed _ hnode field) _ (conforming_conformFields hkeys.1 entries)
        (t.fieldNames path fields) (length_fieldNames t path fields) (nodup_fieldNames t path fields)
      obtain ⟨e, hcall, hfit⟩ := fits_call hc hnode hreads hsublist hfits
      refine ⟨e, ?_, hentries ▸ hfit⟩
      rw [hentries, valueLiteral]
      simpa [at_of_ne hpath, t, Target.fieldNames, fieldNames, Classes.target] using hcall

theorem exists_fieldsFit (hc : c.Legible nodes) (hclosed : Closed nodes) (path : Path)
    (fields : List (String × Shape)) (hkeys : Shape.FieldsKeysDistinct fields)
    (hmem : ∀ field ∈ fields, ∀ inner, field.2.unwrapped = .object inner →
      (path ++ [field.1], inner) ∈ nodes)
    (entries : Entries) (hentries : Conforming entries fields) (names : List String)
    (hlength : names.length = fields.length) (hnames : names.Nodup) :
    ∃ args, List.Forall₂ (ReadsLabelled "" id) (fieldArgs c path fields names entries) args ∧
      (args.map Prod.fst).Sublist names ∧
      FieldsFit (c.target options nodes) path args entries fields names := by
  match fields, names with
  | [], [] =>
      refine ⟨[], ?_, .slnil, trivial⟩
      rw [fieldArgs]
      · exact .nil
      · simp
  | (key, shape) :: rest, name :: names =>
      obtain ⟨⟨value, hvalue⟩, hrest⟩ := List.forall_mem_cons.mp hentries
      obtain ⟨hfirst, hothers⟩ := List.forall_mem_cons.mp hmem
      obtain ⟨hname, hnodup⟩ := List.nodup_cons.mp hnames
      rw [Shape.FieldsKeysDistinct] at hkeys
      obtain ⟨args, hreads, hsublist, hfits⟩ := exists_fieldsFit hc hclosed path rest hkeys.2 hothers
        entries hrest names (by simpa using hlength) hnodup
      have hnot : name ∉ args.map Prod.fst := fun hin => hname (hsublist.subset hin)
      by_cases hnull : valueAt entries key = .null
      · rw [fieldArgs_of_null hnull]
        exact ⟨args, hreads, hsublist.cons _, by simp [hnot, hnull],
          fun e he => absurd (List.mem_map_of_mem he) hnot, hfits⟩
      · obtain ⟨e, hread, hfit⟩ := exists_fits hc hclosed (path ++ [key])
          (by simp) shape hkeys.1 hfirst value (hvalue ▸ hnull)
        rw [← hvalue] at hread hfit
        rw [fieldArgs_of_ne hnull]
        have hothernames : ∀ other ∈ names, other ∉ [(name, e)].map Prod.fst := by
          intro other hother hsame
          obtain rfl : other = name := by simpa using hsame
          exact hname hother
        refine ⟨(name, e) :: args, .cons ⟨_, rfl, hread⟩ hreads, hsublist.cons_cons _,
          by simp [hnull], fun other hin => ?_, hfits.append hothernames⟩
        rcases List.mem_cons.mp hin with heq | hin
        · obtain rfl : other = e := by simpa using heq
          exact hfit
        · exact absurd (List.mem_map_of_mem hin) hnot

end

end Literals

/-! ### Maps -/

section Maps

variable {policy : Model.Policy}

theorem EntriesEncode.cons {kind : Model.Kind} {items : List (String × Expr)} {entries : Entries}
    {fields : Fields} (h : EntriesEncode kind items entries fields) {key : String}
    (hkey : key ∉ fields.map Prod.fst) (e : Expr) :
    EntriesEncode kind ((key, e) :: items) entries fields := by
  induction fields with
  | nil => trivial
  | cons field rest ih =>
      obtain ⟨other, shape⟩ := field
      rw [EntriesEncode] at h
      rw [List.map_cons, List.mem_cons, not_or] at hkey
      refine ⟨fun e' he => h.1 e' ((List.mem_cons.mp he).resolve_left fun heq => ?_), ih h.2 hkey.2⟩
      exact hkey.1 (Prod.mk.inj heq).1.symm

theorem keptKeys_subset (kind : Model.Kind) (entries : Entries) (fields : Fields) :
    keptKeys kind entries fields ⊆ fields.map Prod.fst :=
  List.filter_sublist.subset

theorem encodes_null (shape : Shape) :
    ∃ e, Reads policy.dateCall (encodedLiteral policy shape .null) e ∧
      Encodes policy.kind shape .null e := by
  refine ⟨.word "null", ?_, ?_⟩
  · rw [encodedLiteral]
    exact Dart.reads_word ⟨by decide, by decide⟩
  · cases shape <;> rfl

theorem encodes_scalar {kind : Scalar} (h : kind ≠ .datetime) (value : Json) :
    ∃ e, Reads policy.dateCall (encodedLiteral policy (.scalar kind) value) e ∧
      Encodes policy.kind (.scalar kind) value e := by
  by_cases hnull : value = .null
  · exact hnull ▸ encodes_null _
  · refine ⟨.ofJson .typed value, ?_⟩
    have hread := Dart.reads_literal policy.dateCall .typed value
    cases kind with
    | datetime => contradiction
    | _ => simpa [encodedLiteral, Encodes, hnull] using hread

theorem encodes_list {element : Shape} {items : List Json}
    (h : ∀ item ∈ items, ∃ e, Reads policy.dateCall (encodedLiteral policy element item) e ∧
      Encodes policy.kind element item e) :
    ∃ e, Reads policy.dateCall (encodedLiteral policy (.list element) (.arr items)) e ∧
      Encodes policy.kind (.list element) (.arr items) e := by
  obtain ⟨es, hreads, hencodes⟩ := exists_forall₂ h
  refine ⟨.list es, ?_, ?_⟩
  · rw [encodedLiteral]
    exact Dart.reads_list hreads
  · rw [Encodes]
    exact hencodes

mutual

/-- What is written for a value is the map that its model turns into. -/
theorem exists_encodes (policy : Model.Policy) (shape : Shape) (hkeys : shape.KeysDistinct)
    (value : Json) :
    ∃ e, Reads policy.dateCall (encodedLiteral policy shape (shape.conform value)) e ∧
      Encodes policy.kind shape (shape.conform value) e := by
  by_cases hvalue : shape.conform value = .null
  · exact hvalue ▸ encodes_null shape
  match shape with
  | .scalar kind =>
      by_cases hdate : kind = .datetime
      · subst hdate
        obtain ⟨text, htext⟩ := Shape.conform_datetime hvalue
        rw [htext, encodedLiteral]
        exact ⟨.date text, reads_dateLiteral policy.dateCall text, rfl⟩
      · exact encodes_scalar hdate _
  | .list element =>
      obtain ⟨items, hitems, hkind⟩ := Shape.conform_list hvalue
      rw [hitems]
      refine encodes_list fun item hitem => ?_
      rcases hkind with rfl | hconform
      · exact encodes_scalar (by decide) item
      · obtain ⟨-, origin, rfl⟩ := hconform item hitem
        exact exists_encodes policy element hkeys origin
  | .object fields =>
      rw [Shape.KeysDistinct] at hkeys
      obtain ⟨entries, hentries⟩ := Shape.conform_object hvalue
      obtain ⟨items, hreads, hkept, hencode⟩ := exists_entriesEncode policy fields hkeys.1 hkeys.2 _
        (conforming_conformFields hkeys.1 entries)
      rw [hentries, encodedLiteral]
      refine ⟨.map .plain items, ?_, hkept, hencode⟩
      simpa [Dart.MapStyle.head] using Dart.reads_map .plain hreads

theorem exists_entriesEncode (policy : Model.Policy) (fields : List (String × Shape))
    (hnodup : (fields.map Prod.fst).Nodup) (hkeys : Shape.FieldsKeysDistinct fields)
    (entries : Entries) (hentries : Conforming entries fields) :
    ∃ items, List.Forall₂ (ReadsLabelled policy.dateCall Dart.stringLiteral)
        (encodedEntries policy fields entries) items ∧
      items.map Prod.fst = keptKeys policy.kind entries fields ∧
      EntriesEncode policy.kind items entries fields := by
  match fields with
  | [] =>
      rw [encodedEntries]
      exact ⟨[], .nil, rfl, trivial⟩
  | (key, shape) :: rest =>
      obtain ⟨⟨value, hvalue⟩, hrest⟩ := List.forall_mem_cons.mp hentries
      obtain ⟨hnot, hothers⟩ := List.nodup_cons.mp hnodup
      rw [Shape.FieldsKeysDistinct] at hkeys
      obtain ⟨items, hreads, hkept, hencode⟩ :=
        exists_entriesEncode policy rest hothers hkeys.2 entries hrest
      have hnotin : key ∉ items.map Prod.fst := fun hmem =>
        hnot (keptKeys_subset policy.kind entries rest (hkept ▸ hmem))
      by_cases hskipped : (policy.kind.isBody && valueAt entries key == .null) = true
      · refine ⟨items, ?_, ?_, fun e he => absurd (List.mem_map_of_mem he) hnotin, hencode⟩
        · rw [encodedEntries]
          exact (if_pos hskipped).symm ▸ hreads
        · rw [hkept, keptKeys, keptKeys, List.map_cons, List.filter_cons_of_neg]
          simpa using hskipped
      · obtain ⟨e, hread, hencoded⟩ := exists_encodes policy shape hkeys.1 value
        rw [← hvalue] at hread hencoded
        refine ⟨(key, e) :: items, ?_, ?_, fun other hin => ?_, hencode.cons hnot e⟩
        · rw [encodedEntries]
          exact (if_neg hskipped).symm ▸ .cons ⟨_, rfl, hread⟩ hreads
        · rw [Bool.not_eq_true, Bool.and_eq_false_iff] at hskipped
          rw [List.map_cons, hkept, keptKeys, keptKeys, List.map_cons, List.filter_cons_of_pos]
          simpa using hskipped
        · rcases List.mem_cons.mp hin with heq | hin
          · obtain rfl : other = e := by simpa using heq
            exact hencoded
          · exact absurd (List.mem_map_of_mem hin) hnotin

end

end Maps

end ModelTest

end DartScaffold

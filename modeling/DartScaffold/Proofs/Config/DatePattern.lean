import DartScaffold.Config.Settings
import DartScaffold.Proofs.Dart.Decoding
import DartScaffold.Proofs.Model.Closure
import DartScaffold.Proofs.ModelTest.File

/-!
Date patterns in the generated code. The settings put a pattern between quotes as it is, and what comes of
it stands at every date of a `toMap` and of the map that a test expects, inside any number of lists. Read
as Dart reads it, the call has the pattern for its argument exactly if the pattern holds none of the
characters that a literal escapes (`carries_pattern_iff`).
-/

namespace DartScaffold

namespace Dart

/-! ### Texts between quotes -/

/-- A text without the characters that a literal escapes. -/
def Unescaped (text : String) : Prop :=
  ∀ c ∈ text.toList, c ≠ '\\' ∧ c ≠ '\'' ∧ c ≠ '$'

instance (text : String) : Decidable (Unescaped text) :=
  decidable_of_iff (text.toList.all (fun c => c != '\\' && c != '\'' && c != '$') = true)
    (by simp [Unescaped, and_assoc])

theorem length_of_map_cons {n : Nat} {c : Char} {read : Option (List Char × List Char)}
    {text rest : List Char}
    (hread : ∀ text, read = some (text, rest) → text.length + 1 + rest.length ≤ n)
    (h : read.map (fun (text, s) => (c :: text, s)) = some (text, rest)) :
    text.length + 1 + rest.length ≤ n + 1 := by
  obtain ⟨⟨more, s⟩, hmore, hsame⟩ := Option.map_eq_some_iff.mp h
  obtain ⟨rfl, rfl⟩ := Prod.mk.inj hsame
  have hlength := hread more hmore
  simp only [List.length_cons]
  omega

/-- Beside the text and what follows it there is the closing quote. -/
theorem length_of_decodeText {s text rest : List Char} (h : decodeText s = some (text, rest)) :
    text.length + 1 + rest.length ≤ s.length := by
  induction s using decodeText.induct generalizing text with
  | case1 => contradiction
  | case2 s =>
      obtain ⟨rfl, rfl⟩ : [] = text ∧ s = rest := by simpa [decodeText] using h
      simp only [List.length_nil, List.length_cons]
      omega
  | case3 s => contradiction
  | case4 c s ih =>
      rw [decodeText] at h
      have hlength := length_of_map_cons (fun _ => ih) h
      simp only [List.length_cons]
      omega
  | case5 c s hquote hdollar hslash ih =>
      rw [decodeText] at h
      · exact length_of_map_cons (fun _ => ih) h
      all_goals assumption

/-- A text that is not escaped is read as itself only if nothing in it has to be. -/
theorem decodeText_raw_iff (text rest : List Char) :
    decodeText (text ++ '\'' :: rest) = some (text, rest) ↔
      ∀ c ∈ text, c ≠ '\\' ∧ c ≠ '\'' ∧ c ≠ '$' := by
  induction text with
  | nil => simp [decodeText]
  | cons c text ih =>
      rw [List.forall_mem_cons, ← ih, List.cons_append]
      constructor
      · intro h
        have hquote : c ≠ '\'' := by
          rintro rfl
          simp [decodeText] at h
        have hdollar : c ≠ '$' := by
          rintro rfl
          simp [decodeText] at h
        have hslash : c ≠ '\\' := by
          -- the backslash takes the next character, and then one is missing at the end
          rintro rfl
          obtain ⟨d, s, hs⟩ := List.exists_cons_of_ne_nil (show text ++ '\'' :: rest ≠ [] by simp)
          rw [hs, decodeText] at h
          obtain ⟨⟨more, rest'⟩, hmore, hsame⟩ := Option.map_eq_some_iff.mp h
          obtain ⟨⟨-, rfl⟩, rfl⟩ : (d = '\\' ∧ more = text) ∧ rest' = rest := by simpa using hsame
          have hlength := length_of_decodeText hmore
          have hsum := congrArg List.length hs
          simp only [List.length_append, List.length_cons] at hsum
          omega
        have hplain : escapeChar c = [c] := if_neg (by simp [hslash, hquote, hdollar])
        rw [decodeText_cons hplain] at h
        obtain ⟨⟨more, rest'⟩, hmore, hsame⟩ := Option.map_eq_some_iff.mp h
        obtain ⟨rfl, rfl⟩ : more = text ∧ rest' = rest := by simpa using hsame
        exact ⟨⟨hslash, hquote, hdollar⟩, hmore⟩
      · rintro ⟨⟨hslash, hquote, hdollar⟩, h⟩
        have hplain : escapeChar c = [c] := if_neg (by simp [hslash, hquote, hdollar])
        rw [decodeText_cons hplain, h]
        rfl

/-- The text goes on with a call of the method that has the pattern for its only argument, and with
`rest` after it. -/
def CallsWith (method pattern : String) (rest s : List Char) : Prop :=
  ∃ argument, s = ("." ++ method ++ "(").toList ++ argument ∧
    decodeString argument = some (pattern, ')' :: rest)

theorem callsWith_raw_iff (method pattern : String) (rest : List Char) :
    CallsWith method pattern rest (("." ++ method ++ "('" ++ pattern ++ "')").toList ++ rest) ↔
      Unescaped pattern := by
  have htext : ("." ++ method ++ "('" ++ pattern ++ "')").toList ++ rest =
      ("." ++ method ++ "(").toList ++ '\'' :: (pattern.toList ++ '\'' :: ')' :: rest) := by
    simp
  have hread : decodeString ('\'' :: (pattern.toList ++ '\'' :: ')' :: rest)) =
      some (pattern, ')' :: rest) ↔
        decodeText (pattern.toList ++ '\'' :: ')' :: rest) = some (pattern.toList, ')' :: rest) := by
    rw [decodeString, Option.map_eq_some_iff]
    constructor
    · rintro ⟨⟨text, s⟩, htext, hsame⟩
      obtain ⟨rfl, rfl⟩ := Prod.mk.inj hsame
      rw [htext, String.toList_ofList]
    · intro htext
      exact ⟨_, htext, Prod.ext String.ofList_toList rfl⟩
  rw [Unescaped, ← decodeText_raw_iff, ← hread, CallsWith, htext]
  constructor
  · rintro ⟨argument, hargument, hdecoded⟩
    rwa [← List.append_cancel_left hargument] at hdecoded
  · intro hdecoded
    exact ⟨_, rfl, hdecoded⟩

end Dart

namespace Model

open ClassName (Registry)
open Dart (Field)

/-! ### Dates in maps -/

/-- What stands between the name of a list and the call for its dates. -/
def dateOpening : Nat → String
  | 0 => ""
  | depth + 1 => ".map((e) => e" ++ dateOpening depth

def dateClosing : Nat → String
  | 0 => ""
  | depth + 1 => dateClosing depth ++ ").toList()"

section Expressions

variable {shape : Shape}

theorem elementToMap_date (h : shape.unwrapped = .scalar .datetime) (dateCall : String) :
    elementToMap dateCall shape = some ("e" ++ dateOpening shape.elements.length ++ dateCall ++
      dateClosing shape.elements.length) := by
  induction shape using Shape.unwrapped.induct with
  | case1 element ih =>
      rw [elementToMap, ih h, Option.map_some, Option.some.injEq, ← String.toList_inj]
      simp [Shape.elements, dateOpening, dateClosing, toString]
  | case2 shape hlist =>
      rw [Shape.unwrapped] at h
      · subst h
        simp [elementToMap, Shape.elements, dateOpening, dateClosing]
      · exact hlist

theorem fieldToMap_date (h : shape.unwrapped = .scalar .datetime) (dateCall name : String) :
    fieldToMap dateCall shape name = name ++ "?" ++ dateOpening shape.elements.length ++ dateCall ++
      dateClosing shape.elements.length := by
  cases shape with
  | scalar kind =>
      obtain rfl := Shape.scalar.inj h
      simp [fieldToMap, Shape.elements, dateOpening, dateClosing, toString]
  | list element =>
      have helement : element.unwrapped = .scalar .datetime := h
      rw [fieldToMap, elementToMap_date helement, ← String.toList_inj]
      simp [Shape.elements, dateOpening, dateClosing, toString]
  | object fields => contradiction

theorem elementToMap_of_ne (h : shape.unwrapped ≠ .scalar .datetime) (dateCall other : String) :
    elementToMap dateCall shape = elementToMap other shape := by
  induction shape using Shape.unwrapped.induct with
  | case1 element ih => rw [elementToMap, elementToMap, ih h]
  | case2 shape hlist =>
      cases shape with
      | scalar kind =>
          cases kind with
          | datetime => contradiction
          | _ => rfl
      | list element => exact absurd rfl (hlist element)
      | object fields => rfl

/-- Nothing but a date has the call. -/
theorem fieldToMap_of_ne (h : shape.unwrapped ≠ .scalar .datetime) (dateCall other name : String) :
    fieldToMap dateCall shape name = fieldToMap other shape name := by
  cases shape with
  | scalar kind =>
      cases kind with
      | datetime => contradiction
      | _ => rfl
  | list element =>
      have helement : element.unwrapped ≠ .scalar .datetime := h
      rw [fieldToMap, fieldToMap, elementToMap_of_ne helement dateCall other]
  | object fields => rfl

end Expressions

/-- The entry of a field in the map of its class. -/
def mapEntry (policy : Policy) (f : Field) : String :=
  (if policy.kind.isBody then "if (" ++ f.name ++ " != null) " else "") ++ Dart.stringLiteral f.key ++
    ": " ++ fieldToMap policy.dateCall f.shape f.name ++ ","

theorem mapEntry_mem_toMapLines (policy : Policy) {fields : List Field} {f : Field}
    (hf : f ∈ fields) : "      " ++ mapEntry policy f ∈ toMapLines policy fields := by
  have hmem : mapEntry policy f ∈ fields.map (mapEntry policy) := List.mem_map_of_mem hf
  rw [toMapLines]
  dsimp only
  refine List.mem_append_left _ (List.mem_append_right _ ?_)
  rw [if_neg (by simp [List.ne_nil_of_mem hf])]
  refine List.mem_append_left _ (List.mem_append_right _ (List.mem_map_of_mem ?_))
  exact List.mem_append_right _ hmem

theorem infix_mapEntry (policy : Policy) (hwrites : policy.kind.writesMap = true) (r : Registry)
    (options : BodyOptions) (relativePath : String) {shape : Shape} {node : Path × Fields}
    (hnode : node ∈ shape.nodes) {f : Field} (hf : f ∈ nodeFields policy options node) :
    (mapEntry policy f).toList <:+:
      (emit policy r options relativePath shape).1.content.toList := by
  have hline := mapEntry_mem_toMapLines policy hf
  have hsection : toMapLines policy (nodeFields policy options node) ∈
      classSections policy ((r.ensureNodes shape.nodes).className policy.kind.artifact)
        ((r.ensureNodes shape.nodes).className policy.kind.artifact node.1)
        (members policy.kind (options.at node.1) node.1 node.2) := by
    simp [classSections, hwrites, nodeFields]
  have hentry : (mapEntry policy f).toList <:+: ("      " ++ mapEntry policy f).toList := by
    simpa using infix_between "      " (mapEntry policy f) ""
  exact (hentry.trans (infix_classText hsection hline)).trans
    (infix_emit policy r options relativePath hnode)

end Model

namespace ModelTest

/-- What a test expects reads as the map of its model, where after each date stands the call of the
policy. -/
def ExpectsMap (policy : Model.Policy) (fields : Fields) (sample : Json) (isList : Bool)
    (expected : String) : Prop :=
  ∃ x, Dart.read policy.dateCall expected = some (listed isList x) ∧
    Encodes policy.kind (.object fields) (.obj (conformed fields sample)) x

theorem expectsMap_mapLiteral (policy : Model.Policy) {fields : Fields}
    (hkeys : (Shape.object fields).KeysDistinct) (sample : Json) (isList : Bool) :
    ExpectsMap policy fields sample isList
      (bracketed isList (mapLiteral policy fields (conformed fields sample))) := by
  obtain ⟨x, hreads, hencodes⟩ := exists_reads_mapLiteral policy hkeys sample
  exact ⟨x, (reads_bracketed hreads isList).read, hencodes⟩

end ModelTest

namespace Settings

open Dart (CallsWith Unescaped)
open Model (Kind Policy mapEntry nodeFields emit dateOpening dateClosing)
open ModelTest (IsBodyTest IsResponseTest ExpectsMap)

/-! ### Patterns -/

/-- The method that turns the dates of a model into text. -/
def dateMethod (kind : Kind) : String :=
  if kind.isBody then "toFormatDateTimeBody" else "toFormatDateTimeResponse"

/-- The pattern for the dates of a model. -/
def pattern? (s : Settings) (kind : Kind) : Option String :=
  if kind.isBody then s.bodyDatePattern else s.responseDatePattern

/-- What models of a kind that has a `toMap` are written with. -/
def policy (s : Settings) (kind : Kind) : Policy :=
  { kind, dateCall := if kind.isBody then s.bodyDateCall else s.responseDateCall }

theorem dateCall_policy {s : Settings} {kind : Kind} {p : String} (h : s.pattern? kind = some p)
    (hne : p ≠ "") : (s.policy kind).dateCall = "." ++ dateMethod kind ++ "('" ++ p ++ "')" := by
  have hcall : ∀ method, dateCall method (some p) = "." ++ method ++ "('" ++ p ++ "')" := by
    intro method
    rw [dateCall]
    · rfl
    · exact hne
  rw [pattern?] at h
  rw [policy, dateMethod]
  split at h
  · simp [*, bodyDateCall]
  · simp [*, responseDateCall]

/-- The entry of a date field has the call with its pattern, at any depth of lists; other entries do
without. -/
structure PrintsDate (policy : Policy) (method p : String) (f : Dart.Field) : Prop where
  date : f.shape.unwrapped = .scalar .datetime → ∃ before after,
    mapEntry policy f = before ++ f.name ++ "?" ++ dateOpening f.shape.elements.length ++
      policy.dateCall ++ after ∧
    (CallsWith method p after.toList (policy.dateCall ++ after).toList ↔ Unescaped p)
  other : f.shape.unwrapped ≠ .scalar .datetime →
    ∀ dateCall, mapEntry { policy with dateCall } f = mapEntry policy f

theorem printsDate {policy : Policy} {method p : String}
    (hcall : policy.dateCall = "." ++ method ++ "('" ++ p ++ "')") (f : Dart.Field) :
    PrintsDate policy method p f := by
  constructor
  · intro hdate
    refine ⟨(if policy.kind.isBody then "if (" ++ f.name ++ " != null) " else "") ++
      Dart.stringLiteral f.key ++ ": ", dateClosing f.shape.elements.length ++ ",", ?_, ?_⟩
    · rw [mapEntry, Model.fieldToMap_date hdate]
      simp only [String.append_assoc]
    · have hcalls :=
        Dart.callsWith_raw_iff method p (dateClosing f.shape.elements.length ++ ",").toList
      rwa [← hcall, ← String.toList_append] at hcalls
  · intro hother dateCall
    rw [mapEntry, mapEntry, Model.fieldToMap_of_ne hother dateCall policy.dateCall]

/-- Where a pattern is configured, the call for dates has it for its argument exactly if it holds
none of the characters that a literal escapes. This call stands at every date of a `toMap`, of a body
as of a response, and nowhere else in it, and after every date of the map that a test expects. -/
theorem carries_pattern_iff (s : Settings) (kind : Kind) {p : String}
    (h : s.pattern? kind = some p) (hne : p ≠ "") :
    let policy := s.policy kind
    (∀ rest, CallsWith (dateMethod kind) p rest (policy.dateCall.toList ++ rest) ↔ Unescaped p) ∧
    (kind.writesMap = true → ∀ (r : ClassName.Registry) (options : Model.BodyOptions)
      (relativePath : String) (shape : Shape), ∀ node ∈ shape.nodes,
      ∀ f ∈ nodeFields policy options node,
        (mapEntry policy f).toList <:+: (emit policy r options relativePath shape).1.content.toList ∧
        PrintsDate policy (dateMethod kind) p f) ∧
    (∀ (subject : ModelTest.Subject) (nameOf : Path → String) (fields : Fields) (sample : Json)
      (isList : Bool), (Shape.object fields).KeysDistinct →
      ∃ expected, ExpectsMap policy fields sample isList expected ∧
        (∀ options, ∃ model, IsBodyTest
          (ModelTest.bodyTest subject policy nameOf fields sample isList options) model expected) ∧
        ∃ model, IsResponseTest
          (ModelTest.responseTest subject policy nameOf fields sample isList) model expected) := by
  intro policy
  have hcall : policy.dateCall = "." ++ dateMethod kind ++ "('" ++ p ++ "')" := dateCall_policy h hne
  refine ⟨fun rest => ?_, ?_, ?_⟩
  · rw [hcall]
    exact Dart.callsWith_raw_iff _ _ _
  · intro hwrites r options relativePath shape node hnode f hf
    exact ⟨Model.infix_mapEntry policy hwrites r options relativePath hnode hf, printsDate hcall f⟩
  · intro subject nameOf fields sample isList hkeys
    exact ⟨_, ModelTest.expectsMap_mapLiteral policy hkeys sample isList,
      fun options => ⟨_, ModelTest.isBodyTest_bodyTest ..⟩, ⟨_, ModelTest.isResponseTest_responseTest ..⟩⟩

/-- A pattern with a separator between date and time that is no quote. -/
theorem carries_pattern_slashes :
    ({ bodyDatePattern := some "dd/MM/yyyy HH:mm" } : Settings).pattern? .body =
        some "dd/MM/yyyy HH:mm" ∧ "dd/MM/yyyy HH:mm" ≠ "" ∧
      CallsWith "toFormatDateTimeBody" "dd/MM/yyyy HH:mm" []
        ((policy { bodyDatePattern := some "dd/MM/yyyy HH:mm" } .body).dateCall.toList ++ []) := by
  have hne : "dd/MM/yyyy HH:mm" ≠ "" := by decide
  have hplain : Unescaped "dd/MM/yyyy HH:mm" := by decide
  have hcarries := carries_pattern_iff { bodyDatePattern := some "dd/MM/yyyy HH:mm" } .body rfl hne
  exact ⟨rfl, hne, (hcarries.1 []).mpr hplain⟩

/-- A pattern that quotes a letter, as patterns do: the literal ends there. -/
theorem quoted_pattern_ends_literal :
    (Settings.bodyDateCall { bodyDatePattern := some "yyyy-MM-dd'T'HH:mm" }).toList =
        ".toFormatDateTimeBody(".toList ++ "'yyyy-MM-dd'T'HH:mm')".toList ∧
      Dart.decodeString "'yyyy-MM-dd'T'HH:mm')".toList = some ("yyyy-MM-dd", "T'HH:mm')".toList) := by
  decide

end Settings

end DartScaffold

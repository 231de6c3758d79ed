import DartScaffold.Config.Reading
import Mathlib.Data.List.Forall2

/-!
What a configuration file stands for, and how a malformed one is refused. The features are the keys
of the document beside the one for the settings, and the pages are the keys of a feature, in order; a
null stands for an empty mapping at each level. The first fault ends the reading. It is told as a
fault of the configuration, with one exception: a page or a feature whose name is empty fails as a
record does that is made by hand (`reads_or_blames`).

What a reading tells is one judgment with a rule for each way in which readings are put together.
-/

namespace DartScaffold.Config

open Disk (Location)

/-- The failures that tell of a fault in the configuration. -/
def BlamesConfig (failure : Failure) : Prop :=
  ∃ fault context, failure = .config fault context

/-- The failure of a record whose name is empty. -/
def nameless : Failure := .fields [⟨["name"], .emptyString⟩]

theorem not_blamesConfig_nameless : ¬ BlamesConfig nameless := nofun

/-! ### What a reading tells -/

/-- The values that a reading gives, and whether it fails for an empty name. For all else that keeps it
from giving a value it blames the configuration. -/
structure Tells {α : Type} (result : Except Failure α) (value : α → Prop) (flaw : Prop) : Prop where
  ok : ∀ a, result = .ok a ↔ value a
  flawed : result = .error nameless ↔ flaw
  blames : ∀ failure, result = .error failure → failure = nameless ∨ BlamesConfig failure

/-- All is well in a list up to the first item that has the flaw. -/
def Meets {α : Type} (good flaw : α → Prop) (xs : List α) : Prop :=
  ∃ before x after, xs = before ++ x :: after ∧ (∀ y ∈ before, good y) ∧ flaw x

section Rules

variable {α β : Type} {result : Except Failure α} {value other : α → Prop} {flaw reason : Prop}

theorem not_meets_nil {good bad : α → Prop} : ¬ Meets good bad [] := by
  rintro ⟨before, x, after, hsplit, -⟩
  simp at hsplit

theorem meets_cons {good bad : α → Prop} {x : α} {xs : List α} :
    Meets good bad (x :: xs) ↔ bad x ∨ good x ∧ Meets good bad xs := by
  constructor
  · rintro ⟨before, y, after, hsplit, hbefore, hy⟩
    cases before with
    | nil =>
        obtain ⟨rfl, -⟩ := List.cons.inj hsplit
        exact .inl hy
    | cons z before =>
        obtain ⟨rfl, hrest⟩ := List.cons.inj hsplit
        obtain ⟨hz, hbefore⟩ := List.forall_mem_cons.mp hbefore
        exact .inr ⟨hz, before, y, after, hrest, hbefore, hy⟩
  · rintro (hx | ⟨hx, before, y, after, rfl, hbefore, hy⟩)
    · exact ⟨[], x, xs, rfl, List.forall_mem_nil _, hx⟩
    · exact ⟨x :: before, y, after, rfl, List.forall_mem_cons.mpr ⟨hx, hbefore⟩, hy⟩

theorem Tells.congr (h : Tells result value flaw) (hvalue : ∀ a, value a ↔ other a)
    (hflaw : flaw ↔ reason) : Tells result other reason :=
  ⟨fun a => (h.ok a).trans (hvalue a), h.flawed.trans hflaw, h.blames⟩

theorem tells_ok (a : α) : Tells (.ok a) (· = a) False :=
  ⟨fun _ => ⟨fun h => (Except.ok.inj h).symm, fun h => h ▸ rfl⟩, iff_false_intro nofun, nofun⟩

theorem tells_config (fault : ConfigFault) (context : Entries) :
    Tells (.error (.config fault context) : Except Failure α) (fun _ => False) False :=
  ⟨fun _ => iff_false_intro nofun, iff_false_intro nofun,
    fun _ h => .inr ⟨fault, context, (Except.error.inj h).symm⟩⟩

theorem tells_nameless : Tells (.error nameless : Except Failure α) (fun _ => False) True :=
  ⟨fun _ => iff_false_intro nofun, iff_true_intro rfl, fun _ h => .inl (Except.error.inj h).symm⟩

theorem Tells.bind {next : α → Except Failure β} {values : α → β → Prop} {flaws : α → Prop}
    (h : Tells result value flaw) (hnext : ∀ a, Tells (next a) (values a) (flaws a)) :
    Tells (result >>= next) (fun b => ∃ a, value a ∧ values a b)
      (flaw ∨ ∃ a, value a ∧ flaws a) := by
  cases hresult : result with
  | error failure =>
      have hnone : ∀ a, ¬ value a := fun a ha => absurd (hresult.symm.trans ((h.ok a).mpr ha)) nofun
      have hflaw := h.flawed
      rw [hresult] at hflaw
      refine ⟨fun b => iff_of_false nofun fun ⟨a, ha, _⟩ => hnone a ha, ?_, ?_⟩
      · rw [or_iff_left fun ⟨a, ha, _⟩ => hnone a ha, ← hflaw]
        exact ⟨fun heq => congrArg _ (Except.error.inj heq), fun heq => congrArg _ (Except.error.inj heq)⟩
      · rintro _ ⟨⟩
        exact h.blames failure hresult
  | ok a =>
      have honly : ∀ x, value x ↔ x = a := fun x => by
        rw [← h.ok x, hresult, Except.ok.injEq, eq_comm]
      have hflaw : ¬ flaw := fun hf => absurd (hresult.symm.trans (h.flawed.mpr hf)) nofun
      simp only [honly, exists_eq_left, or_iff_right hflaw]
      exact hnext a

/-- A list is read item by item, up to the first failure. -/
theorem Tells.mapM {f : α → Except Failure β} {values : α → β → Prop} {flaws : α → Prop}
    (h : ∀ x, Tells (f x) (values x) (flaws x)) (xs : List α) :
    Tells (xs.mapM f) (List.Forall₂ values xs) (Meets (fun x => ∃ y, values x y) flaws xs) := by
  induction xs with
  | nil =>
      refine (tells_ok []).congr (fun ys => ?_) (iff_of_false id not_meets_nil)
      rw [List.forall₂_nil_left_iff]
  | cons x xs ih =>
      rw [List.mapM_cons]
      refine ((h x).bind fun y => ih.bind fun ys => tells_ok (y :: ys)).congr (fun ys => ?_) ?_
      · rw [List.forall₂_cons_left_iff]
        constructor
        · rintro ⟨y, hy, rest, hrest, rfl⟩
          exact ⟨y, rest, hy, hrest, rfl⟩
        · rintro ⟨y, rest, hy, hrest, rfl⟩
          exact ⟨y, hy, rest, hrest, rfl⟩
      · rw [meets_cons]
        simp

end Rules

/-! ### Mappings and names -/

/-- A value that is a mapping with these entries, or null where they are none. -/
inductive MapsTo : Json → Entries → Prop where
  | null : MapsTo .null []
  | obj (entries : Entries) : MapsTo (.obj entries) entries

theorem tells_mappingOf (what : String) (context : Entries) (value : Json) :
    Tells (mappingOf what context value) (MapsTo value) False := by
  cases value with
  | null =>
      refine (tells_ok []).congr (fun entries => ?_) Iff.rfl
      exact ⟨fun h => h ▸ .null, fun | .null => rfl⟩
  | obj found =>
      refine (tells_ok found).congr (fun entries => ?_) Iff.rfl
      exact ⟨fun h => h ▸ .obj found, fun | .obj _ => rfl⟩
  | _ => exact (tells_config _ _).congr (fun _ => iff_of_false id nofun) Iff.rfl

/-- What is made of a name, which must not be empty. -/
theorem tells_named {α : Type} (name : String) (a : α) :
    Tells (do
      if name = "" then throw (.fields [⟨["name"], .emptyString⟩])
      return a) (fun b => name ≠ "" ∧ b = a) (name = "") := by
  by_cases hname : name = ""
  · simp only [hname, if_true]
    exact tells_nameless.congr (fun _ => by simp) (by simp)
  · simp only [hname, if_false]
    exact (tells_ok a).congr (fun _ => by simp [hname]) Iff.rfl

/-! ### Pages and features -/

/-- The page that an entry of a feature stands for. -/
structure IsPage (entry : String × Json) (page : Page) : Prop where
  named : entry.1 ≠ ""
  name : page.name = entry.1
  apis : MapsTo entry.2 page.apis

/-- The entry would be a page if it had a name. -/
def NamelessPage (entry : String × Json) : Prop :=
  entry.1 = "" ∧ ∃ apis, MapsTo entry.2 apis

theorem tells_pageOf (context : Entries) (entry : String × Json) :
    Tells (pageOf context entry.1 entry.2) (IsPage entry) (NamelessPage entry) := by
  refine ((tells_mappingOf _ _ entry.2).bind fun apis =>
    tells_named entry.1 (⟨entry.1, apis⟩ : Page)).congr (fun page => ?_) ?_
  · constructor
    · rintro ⟨apis, hmaps, hname, rfl⟩
      exact ⟨hname, rfl, hmaps⟩
    · rintro ⟨hnamed, hname, hmaps⟩
      exact ⟨page.apis, hmaps, hnamed, by rw [← hname]⟩
  · simp [NamelessPage, and_comm]

theorem pagesOf_eq_mapM (context entries : Entries) :
    pagesOf context entries = entries.mapM fun entry => pageOf context entry.1 entry.2 := by
  induction entries with
  | nil => rfl
  | cons entry entries ih =>
      rw [pagesOf, ih, List.mapM_cons]

/-- The feature that an entry of the document stands for. -/
structure IsFeature (place root : Location) (entry : String × Json) (feature : Feature) : Prop where
  named : entry.1 ≠ ""
  name : feature.name = entry.1
  directory : feature.directory = (featureDirectory root entry.1 (appsNameOf place)).toString
  apps : feature.apps = appsNameOf place
  /-- One page for each entry, in order. -/
  pages : ∃ entries, MapsTo entry.2 entries ∧ List.Forall₂ IsPage entries feature.pages

/-- The pages of the feature are read up to one that has no name, or all of them are and the feature
itself has none. -/
def NamelessFeature (entry : String × Json) : Prop :=
  ∃ pages, MapsTo entry.2 pages ∧
    (Meets (fun page => ∃ p, IsPage page p) NamelessPage pages ∨
      (∃ ps, List.Forall₂ IsPage pages ps) ∧ entry.1 = "")

theorem tells_featureOf (place root : Location) (entry : String × Json) :
    Tells (featureOf place root entry.1 entry.2) (IsFeature place root entry)
      (NamelessFeature entry) := by
  have hpages : ∀ context entries, Tells (pagesOf context entries) (List.Forall₂ IsPage entries)
      (Meets (fun page => ∃ p, IsPage page p) NamelessPage entries) := by
    intro context entries
    rw [pagesOf_eq_mapM]
    exact Tells.mapM (tells_pageOf context) entries
  refine ((tells_mappingOf _ _ entry.2).bind fun entries => (hpages _ entries).bind fun pages =>
    tells_named entry.1 (⟨entry.1, (featureDirectory root entry.1 (appsNameOf place)).toString,
      appsNameOf place, pages⟩ : Feature)).congr (fun feature => ?_) ?_
  · constructor
    · rintro ⟨entries, hmaps, pages, hpages, hname, rfl⟩
      exact ⟨hname, rfl, rfl, rfl, entries, hmaps, hpages⟩
    · rintro ⟨hnamed, hname, hdirectory, happs, entries, hmaps, hpages⟩
      exact ⟨entries, hmaps, feature.pages, hpages, hnamed, by rw [← hdirectory, ← hname, ← happs]⟩
  · simp [NamelessFeature]

/-! ### Files -/

/-- The entries of a document that stand for features. -/
def featureEntries (entries : Entries) : Entries :=
  entries.filter fun entry => entry.1 != settingsKey

/-- The value in a document that stands for the settings. -/
def settingsValue (entries : Entries) : Json :=
  (entries.get? settingsKey).getD .null

theorem featuresOf_eq_mapM (place root : Location) (entries : Entries) :
    featuresOf place root entries =
      (featureEntries entries).mapM fun entry => featureOf place root entry.1 entry.2 := by
  induction entries with
  | nil => rfl
  | cons entry entries ih =>
      rw [featureEntries] at ih ⊢
      rw [featuresOf, List.filter_cons]
      by_cases hkey : entry.1 = settingsKey
      · simpa [hkey] using ih
      · simp only [hkey, if_false, bne_iff_ne, ne_eq, not_false_eq_true, if_true, List.mapM_cons]
        rw [ih]

/-- The settings that the document holds. -/
def IsSettings (value : Json) (settings : Settings) : Prop :=
  ∃ entries, MapsTo value entries ∧ Settings.ofEntries entries = .valid settings

theorem tells_settingsOf (place : Location) (entries : Entries) :
    Tells (settingsOf place entries) (IsSettings (settingsValue entries)) False := by
  have hmapping := tells_mappingOf s!"'{settingsKey}' section" [("file", .str place.toString)]
    (settingsValue entries)
  rw [settingsOf]
  refine Tells.congr (@Tells.bind _ _ _ _ _ _ (fun raw settings =>
    Settings.ofEntries raw = .valid settings) (fun _ => False) hmapping fun raw => ?_)
    (fun _ => Iff.rfl) (by simp)
  cases Settings.ofEntries raw with
  | valid settings => exact (tells_ok settings).congr (fun _ => by simp [eq_comm]) Iff.rfl
  | invalid problems => exact (tells_config _ _).congr (fun _ => by simp) Iff.rfl

/-- What a document at `place` stands for. -/
structure IsConfigFile (place root : Location) (entries : Entries) (file : ConfigFile) : Prop where
  placed : file.place = place
  apps : file.apps = appsNameOf place
  settings : IsSettings (settingsValue entries) file.settings
  /-- One feature for each key but that of the settings, in order. -/
  features : List.Forall₂ (IsFeature place root) (featureEntries entries) file.features

/-- The settings are read, and so are the features up to one in which a name is missing. -/
def NamelessFirst (place root : Location) (entries : Entries) : Prop :=
  (∃ settings, IsSettings (settingsValue entries) settings) ∧
    Meets (fun entry => ∃ feature, IsFeature place root entry feature) NamelessFeature
      (featureEntries entries)

theorem tells_ofEntries (place root : Location) (entries : Entries) :
    Tells (ofEntries place root entries) (IsConfigFile place root entries)
      (NamelessFirst place root entries) := by
  have hfeatures : Tells (featuresOf place root entries)
      (List.Forall₂ (IsFeature place root) (featureEntries entries))
      (Meets (fun entry => ∃ feature, IsFeature place root entry feature) NamelessFeature
        (featureEntries entries)) := by
    rw [featuresOf_eq_mapM]
    exact Tells.mapM (tells_featureOf place root) _
  refine ((tells_settingsOf place entries).bind fun settings => hfeatures.bind fun features =>
    tells_ok (⟨place, appsNameOf place, settings, features⟩ : ConfigFile)).congr (fun file => ?_) ?_
  · constructor
    · rintro ⟨settings, hsettings, features, hfeatures, rfl⟩
      exact ⟨rfl, rfl, hsettings, hfeatures⟩
    · rintro ⟨hplace, happs, hsettings, hfeatures⟩
      exact ⟨file.settings, hsettings, file.features, hfeatures, by rw [← happs, ← hplace]⟩
  · simp [NamelessFirst]

/-- No feature of the document has an empty name, and no page in one. -/
def Named (entries : Entries) : Prop :=
  ∀ entry ∈ featureEntries entries, entry.1 ≠ "" ∧ ∀ pages, MapsTo entry.2 pages → "" ∉ pages.keys

theorem Named.not_namelessFirst {entries : Entries} (h : Named entries) (place root : Location) :
    ¬ NamelessFirst place root entries := by
  rintro ⟨-, before, entry, after, hsplit, -, pages, hmaps, hflaw⟩
  obtain ⟨hname, hpages⟩ := h entry (hsplit ▸ List.mem_append_right _ List.mem_cons_self)
  rcases hflaw with ⟨first, page, rest, rfl, -, hpage, -⟩ | ⟨-, hempty⟩
  · exact hpages _ hmaps (hpage ▸ List.mem_map_of_mem (List.mem_append_right _ List.mem_cons_self))
  · exact hname hempty

/-- A document is read, or there is a failure. It is read exactly if the settings are good and every
feature and page is a mapping or null and has a name, and then the features and the pages are the keys of
the document, but for the settings, and of each feature, in order. A failure blames the configuration,
unless it is that of a record without a name: this is the failure exactly if all is well up to a page or a
feature that is called by the empty string. So where all features and pages have names, a document is read
or the configuration is blamed. -/
theorem reads_or_blames (place root : Location) (entries : Entries) :
    (∀ file, ofEntries place root entries = .ok file ↔ IsConfigFile place root entries file) ∧
    (∀ failure, ofEntries place root entries = .error failure →
      BlamesConfig failure ∨ failure = nameless ∧ NamelessFirst place root entries) ∧
    (ofEntries place root entries = .error nameless ↔ NamelessFirst place root entries) ∧
    (Named entries →
      (∃ file, ofEntries place root entries = .ok file ∧ IsConfigFile place root entries file) ∨
      ∃ failure, ofEntries place root entries = .error failure ∧ BlamesConfig failure) := by
  have htells := tells_ofEntries place root entries
  have hfails : ∀ failure, ofEntries place root entries = .error failure →
      BlamesConfig failure ∨ failure = nameless ∧ NamelessFirst place root entries := by
    intro failure hfailure
    rcases htells.blames failure hfailure with rfl | hblames
    · exact .inr ⟨rfl, htells.flawed.mp hfailure⟩
    · exact .inl hblames
  refine ⟨htells.ok, hfails, htells.flawed, fun hnamed => ?_⟩
  cases hresult : ofEntries place root entries with
  | ok file => exact .inl ⟨file, rfl, (htells.ok file).mp hresult⟩
  | error failure =>
      have hblames := (hfails failure hresult).resolve_right fun hflaw =>
        hnamed.not_namelessFirst place root hflaw.2
      exact .inr ⟨failure, rfl, hblames⟩

/-- A feature with a page that is called by the empty string. -/
def unnamedPage : Entries := [("auth", .obj [("", .obj [])])]

theorem unnamed_page_blames_no_config :
    let result := ofEntries (Location.ofString "json2dart/json2dart.yaml") {} unnamedPage
    result = .error nameless ∧ nameless.kind = "ValidationError" ∧
      ¬ ((∃ file, result = .ok file) ∨
        ∃ failure, result = .error failure ∧ BlamesConfig failure) := by
  have hresult : ofEntries (Location.ofString "json2dart/json2dart.yaml") {} unnamedPage =
      .error nameless := rfl
  refine ⟨hresult, rfl, ?_⟩
  rw [hresult]
  rintro (⟨file, hfile⟩ | ⟨failure, hfailure, hblames⟩)
  · exact absurd hfile nofun
  · obtain rfl := Except.error.inj hfailure
    exact not_blamesConfig_nameless hblames

end DartScaffold.Config

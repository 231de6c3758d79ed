import DartScaffold.Proofs.Validation.Name

/-!
The two checks of an API entry: the one that lists its faults, and the one that makes an `Api` of it. Field
by field they accept the same values, but for what a call returns. There the first check takes every value
that counts as absent for a model, and the second takes null only.
-/

namespace DartScaffold

theorem Entries.get?_put_of_ne (entries : Entries) {key other : String} (h : other ≠ key)
    (value : Json) : (entries.put key value).get? other = entries.get? other := by
  have hbeq : (other == key) = false := beq_false_of_ne h
  rw [get?, get?]
  induction entries with
  | nil => simp [put, List.lookup_cons, hbeq]
  | cons entry entries ih =>
      rw [put]
      split
      · rename_i hkey
        rw [List.lookup_cons, List.lookup_cons, hkey, hbeq]
      · rw [List.lookup_cons, List.lookup_cons, ih]

/-! ### Checks that are passed -/

namespace Schema

variable {α β : Type}

def Checked.Passed (c : Checked α) : Prop :=
  ∃ a, c = .valid a

@[simp] theorem Checked.passed_valid (a : α) : (Checked.valid a).Passed := ⟨a, rfl⟩

@[simp] theorem Checked.not_passed_invalid (problems : List Problem) :
    ¬ (Checked.invalid problems : Checked α).Passed := nofun

@[simp] theorem not_passed_fail (cause : Cause) : ¬ (fail cause : Checked α).Passed := nofun

@[simp] theorem Checked.passed_map (f : α → β) (c : Checked α) : (f <$> c).Passed ↔ c.Passed := by
  cases c with
  | valid a => exact iff_of_true ⟨f a, rfl⟩ ⟨a, rfl⟩
  | invalid problems => exact iff_of_false nofun nofun

@[simp] theorem Checked.passed_seq (f : Checked (α → β)) (c : Checked α) :
    (f <*> c).Passed ↔ f.Passed ∧ c.Passed := by
  cases f with
  | invalid problems => exact iff_of_false nofun fun h => nomatch h.1
  | valid g =>
      cases c with
      | valid a => exact iff_of_true ⟨g a, rfl⟩ ⟨⟨g, rfl⟩, ⟨a, rfl⟩⟩
      | invalid problems => exact iff_of_false nofun fun h => nomatch h.2

@[simp] theorem Checked.passed_under (key : String) (c : Checked α) :
    (c.under key).Passed ↔ c.Passed := by
  cases c with
  | valid a => exact iff_of_true ⟨a, rfl⟩ ⟨a, rfl⟩
  | invalid problems => exact iff_of_false nofun nofun

theorem passed_required {entries : Entries} {key : String} {check : Check α} :
    (required entries key check).Passed ↔
      ∃ value, entries.get? key = some value ∧ (check value).Passed := by
  rw [required]
  cases entries.get? key with
  | none => simp
  | some value => simp

theorem passed_withDefault {entries : Entries} {key : String} {default : α} {check : Check α} :
    (withDefault entries key default check).Passed ↔
      ∀ value, entries.get? key = some value → (check value).Passed := by
  rw [withDefault]
  cases entries.get? key with
  | none => simp
  | some value => simp

theorem passed_optional {check : Check α} {value : Json} :
    (optional check value).Passed ↔ value = .null ∨ (check value).Passed := by
  cases value with
  | null => exact iff_of_true ⟨none, rfl⟩ (.inl rfl)
  | _ => simp [optional]

theorem passed_string {value : Json} : (string value).Passed ↔ ∃ s, value = .str s := by
  cases value with
  | str s => exact iff_of_true ⟨s, rfl⟩ ⟨s, rfl⟩
  | _ => exact iff_of_false nofun nofun

theorem passed_choice {name : α → String} {all : List α} {value : Json} :
    (choice name all value).Passed ↔ ∃ s, value = .str s ∧ s ∈ all.map name := by
  cases value with
  | str s =>
      rw [choice]
      cases hfound : all.find? fun a => name a == s with
      | none =>
          refine iff_of_false nofun ?_
          rintro ⟨_, heq, hmem⟩
          obtain rfl := Json.str.inj heq
          obtain ⟨a, ha, hname⟩ := List.mem_map.mp hmem
          exact List.find?_eq_none.mp hfound a ha (beq_iff_eq.mpr hname)
      | some a =>
          have hname : (name a == s) = true := List.find?_some (p := fun a => name a == s) hfound
          exact iff_of_true ⟨a, rfl⟩ ⟨s, rfl,
            List.mem_map.mpr ⟨a, List.mem_of_find?_eq_some hfound, eq_of_beq hname⟩⟩
  | _ => exact iff_of_false nofun nofun

end Schema

open Schema

namespace Validation

/-! ### The fields -/

theorem isOneOf_iff {names : List String} {value : Json} {known : Bool}
    (h : isOneOf names value = .ok known) : known = true ↔ ∃ s, value = .str s ∧ s ∈ names := by
  cases value with
  | str s =>
      obtain rfl := Except.ok.inj h
      simp
  | arr items => contradiction
  | obj entries => contradiction
  | _ =>
      obtain rfl := Except.ok.inj h
      simp

/-- A set of names knows what the choice among them accepts. -/
theorem isOneOf_choice {α : Type} {name : α → String} {all : List α} {value : Json} {known : Bool}
    (h : isOneOf (all.map name) value = .ok known) :
    known = true ↔ (choice name all value).Passed := by
  rw [isOneOf_iff h, passed_choice]

theorem harmless_methodFaults {api : String} {value : Option Json} {faults : List Fault}
    (h : methodFaults api value = .ok faults) :
    Harmless faults ↔ ∃ v, value = some v ∧ (Api.methodOf v).Passed := by
  rw [methodFaults.eq_def] at h
  split at h
  · obtain rfl := Except.ok.inj h
    simp [Fault.level]
  · obtain rfl := Except.ok.inj h
    refine iff_of_false (by simp [Fault.level]) ?_
    rintro ⟨_, heq, hpassed⟩
    obtain rfl := Option.some.inj heq
    exact Checked.not_passed_invalid _ hpassed
  · rename_i v hnull
    cases hknown : isOneOf (Api.Method.all.map Api.Method.name) v with
    | error failure =>
        rw [hknown] at h
        contradiction
    | ok known =>
        rw [hknown] at h
        have hchoice : known = true ↔ (Api.methodOf v).Passed := isOneOf_choice hknown
        simp only [Option.some.injEq, exists_eq_left', ← hchoice]
        cases known with
        | true =>
            obtain rfl := Except.ok.inj h
            simp
        | false =>
            obtain rfl := Except.ok.inj h
            simp [Fault.level]

theorem harmless_pathFaults {api : String} {value : Option Json} :
    Harmless (pathFaults api value) ↔ ∃ v, value = some v ∧ (string v).Passed := by
  simp only [passed_string]
  rw [pathFaults.eq_def]
  split
  · simp [Fault.level]
  · simp [Fault.level]
  · simp
  · rename_i v hnull hstr
    refine iff_of_false (by simp [Fault.level]) ?_
    rintro ⟨_, heq, s, rfl⟩
    exact hstr s (Option.some.inj heq)

theorem harmless_referenceFaults {entries : Entries} :
    Harmless (referenceFaults entries) ↔ ∀ key ∈ referenceKeys,
      ∀ value, entries.get? key = some value → (optional string value).Passed := by
  simp only [Harmless, referenceFaults, List.mem_filterMap, passed_optional, passed_string]
  constructor
  · intro h key hkey value hvalue
    cases value with
    | null => exact .inl rfl
    | str s => exact .inr ⟨s, rfl⟩
    | _ => exact absurd rfl (h _ ⟨key, hkey, by rw [hvalue]⟩)
  · rintro h fault ⟨key, hkey, hfault⟩
    split at hfault
    · contradiction
    · contradiction
    · contradiction
    · rename_i value hnull hstr hvalue
      obtain rfl | ⟨s, rfl⟩ := h key hkey value hvalue
      · exact absurd rfl hnull
      · exact absurd rfl (hstr s)

/-! ### The cache -/

theorem passed_natural {value : Json} (h : Harmless (ttlFaults value)) :
    (optional natural value).Passed := by
  rw [passed_optional]
  cases value with
  | null => exact .inl rfl
  | int i =>
      have hsign : ¬ i < 0 := fun hneg => by simp [ttlFaults, hneg, Fault.level] at h
      exact .inr ⟨i, by simp [natural, integer, hsign]⟩
  | _ => exact absurd rfl (h _ List.mem_cons_self)

theorem passed_boolean {value : Json} (h : Harmless (keepFaults value)) :
    (optional boolean value).Passed := by
  rw [passed_optional]
  cases value with
  | null => exact .inl rfl
  | bool b => exact .inr ⟨b, rfl⟩
  | _ => exact absurd rfl (h _ List.mem_cons_self)

theorem passed_directive {entries : Entries} {faults : List Fault}
    (hfaults : directiveFaults entries = .ok faults) (h : Harmless faults) :
    (CacheDirective.ofEntries entries).Passed := by
  rw [directiveFaults] at hfaults
  dsimp only at hfaults
  cases hknown : isOneOf (Api.CacheStrategy.all.map Api.CacheStrategy.name)
    ((entries.get? "strategy").getD .null) with
  | error failure =>
      rw [hknown] at hfaults
      contradiction
  | ok known =>
      rw [hknown] at hfaults
      obtain rfl := Except.ok.inj hfaults
      obtain ⟨⟨hstrategy, httl⟩, hkeep⟩ : (Harmless _ ∧ Harmless _) ∧ Harmless _ := by
        simpa only [harmless_append] using h
      have hchoice : known = true ↔ _ := isOneOf_iff hknown
      obtain rfl : known = true := by
        cases known with
        | true => rfl
        | false => exact absurd rfl (hstrategy _ List.mem_cons_self)
      simp only [CacheDirective.ofEntries, Checked.passed_seq, Checked.passed_map, passed_required,
        passed_withDefault]
      refine ⟨⟨?_, fun value hvalue => ?_⟩, fun value hvalue => ?_⟩
      · cases hvalue : entries.get? "strategy" with
        | none =>
            rw [hvalue] at hknown
            exact absurd (Except.ok.inj hknown) Bool.false_ne_true
        | some value =>
            rw [hvalue] at hknown
            exact ⟨value, rfl, (isOneOf_choice hknown).mp rfl⟩
      · rw [hvalue] at httl
        exact passed_natural httl
      · rw [hvalue] at hkeep
        exact passed_boolean hkeep

theorem passed_cache {method : Json} {value : Option Json} {faults : List Fault}
    (hfaults : cacheFaults method value = .ok faults) (h : Harmless faults) :
    ∀ v, value = some v → (optional CacheDirective.ofJson v).Passed := by
  rintro v rfl
  rw [passed_optional]
  -- what the value's own check finds is kept, whatever is said of the method
  have hfound : ∀ (found : Except Failure (List Fault)) (ignored : List Fault),
      (do return (← found) ++ ignored) = .ok faults → ∃ fs, found = .ok fs ∧ Harmless fs := by
    intro found ignored hbind
    cases found with
    | error failure => contradiction
    | ok fs =>
        obtain rfl := Except.ok.inj hbind
        exact ⟨fs, rfl, ((harmless_append _ _).mp h).1⟩
  have hbad : ∀ ignored, (do return (← pure [Fault.badCacheStrategy]) ++ ignored) =
      (.ok faults : Except Failure _) → False := by
    intro ignored hbind
    obtain ⟨fs, hfs, hharmless⟩ := hfound _ _ hbind
    obtain rfl := Except.ok.inj hfs
    exact hharmless _ List.mem_cons_self rfl
  cases v with
  | null => exact .inl rfl
  | str s =>
      obtain ⟨fs, hfs, hharmless⟩ := hfound _ _ hfaults
      exact .inr (passed_directive hfs hharmless)
  | obj entries =>
      obtain ⟨fs, hfs, hharmless⟩ := hfound _ _ hfaults
      exact .inr (passed_directive hfs hharmless)
  | _ => exact (hbad _ hfaults).elim

/-! ### What a call returns -/

/-- Whatever an unknown value counts as, to be chosen it must be there. -/
theorem passed_returnDataOf {value : Json} (h : (Api.returnDataOf value).Passed) :
    value = .null ∨ value.isPresent = true := by
  cases value with
  | null => exact .inl rfl
  | str s =>
      have hchoice : (choice Api.ReturnData.name Api.ReturnData.all (.str s)).Passed := h
      obtain ⟨_, heq, hname⟩ := passed_choice.mp hchoice
      obtain rfl := Json.str.inj heq
      refine .inr (bne_iff_ne.mpr ?_)
      rintro rfl
      exact absurd hname (by decide)
  | _ => exact absurd h (Checked.not_passed_invalid _)

theorem passed_returnData {method : Json} {value : Option Json} {faults : List Fault}
    (hfaults : returnDataFaults (returnDataValue value) method = .ok faults) (h : Harmless faults) :
    (∀ v, value = some v → (Api.returnDataOf v).Passed) ↔
      ∀ v, value = some v → v = .null ∨ v.isPresent = true := by
  refine ⟨fun hpassed v hv => passed_returnDataOf (hpassed v hv), fun hpresent v hv => ?_⟩
  subst hv
  obtain rfl | hpresent := hpresent v rfl
  · exact ⟨.model, rfl⟩
  · rw [returnDataValue, if_pos hpresent, returnDataFaults] at hfaults
    cases hknown : isOneOf (Api.ReturnData.all.map Api.ReturnData.name) v with
    | error failure =>
        rw [hknown] at hfaults
        contradiction
    | ok known =>
        cases known with
        | false =>
            rw [hknown] at hfaults
            obtain rfl := Except.ok.inj hfaults
            exact absurd rfl (h _ List.mem_cons_self)
        | true =>
            obtain ⟨s, rfl, hname⟩ := (isOneOf_iff hknown).mp rfl
            exact passed_choice.mpr ⟨s, rfl, hname⟩

/-! ### The whole entry -/

theorem entryFaults_obj {name : Json} {entries : Entries} {faults : List Fault}
    (h : entryFaults name (.obj entries) = .ok faults) :
    ∃ methods returns caches,
      methodFaults name.plainText (entries.get? "method") = .ok methods ∧
      returnDataFaults (returnDataValue (entries.get? "return_data"))
        ((entries.get? "method").getD .null) = .ok returns ∧
      cacheFaults ((entries.get? "method").getD .null) (entries.get? "cache_strategy") = .ok caches ∧
      faults = nameFaults name ++ (methods ++ pathFaults name.plainText (entries.get? "path") ++
        returns ++ caches ++ referenceFaults entries ++ unknownKeyFaults entries) := by
  rw [entryFaults, recordFaults] at h
  cases hmethods : methodFaults name.plainText (entries.get? "method") with
  | error failure => rw [hmethods] at h; cases h
  | ok methods =>
      cases hreturns : returnDataFaults (returnDataValue (entries.get? "return_data"))
          ((entries.get? "method").getD .null) with
      | error failure => rw [hmethods, hreturns] at h; cases h
      | ok returns =>
          cases hcaches : cacheFaults ((entries.get? "method").getD .null)
              (entries.get? "cache_strategy") with
          | error failure => rw [hmethods, hreturns, hcaches] at h; cases h
          | ok caches =>
              rw [hmethods, hreturns, hcaches] at h
              exact ⟨methods, returns, caches, rfl, rfl, rfl, (Except.ok.inj h).symm⟩

/-- With no error among its faults an entry makes an API, unless its `return_data` is a value that counts
as absent and is not null. -/
theorem passed_apiOfEntry {name : Json} {entries : Entries} {faults : List Fault}
    (hfaults : entryFaults name (.obj entries) = .ok faults) (h : Harmless faults) :
    (apiOfEntry name (.obj entries)).Passed ↔
      ∀ value, entries.get? "return_data" = some value → value = .null ∨ value.isPresent = true := by
  obtain ⟨methods, returns, caches, hmethods, hreturns, hcaches, rfl⟩ :=
    entryFaults_obj hfaults
  simp only [harmless_append] at h
  obtain ⟨hname, ⟨⟨⟨⟨⟨hm, hp⟩, hr⟩, hc⟩, href⟩, -⟩⟩ := h
  rw [← passed_returnData hreturns hr]
  obtain ⟨s, rfl, hs⟩ := harmless_nameFaults hname
  have hnonempty : (nonemptyString (.str s)).Passed := by
    have hne : s ≠ "" := by
      rintro rfl
      exact absurd hs (by decide)
    exact ⟨s, by simp [nonemptyString, hne]⟩
  have hreference := harmless_referenceFaults.mp href
  have hget : ∀ key, key ≠ "name" → (entries.put "name" (.str s)).get? key = entries.get? key :=
    fun key hkey => entries.get?_put_of_ne hkey _
  simp only [apiOfEntry, Api.ofEntries, Checked.passed_seq, Checked.passed_map, passed_required,
    passed_withDefault, Entries.get?_put_self, hget "method" (by decide), hget "path" (by decide),
    hget "body" (by decide), hget "response" (by decide), hget "header" (by decide),
    hget "cache_strategy" (by decide), hget "return_data" (by decide), hget "dir_extra" (by decide)]
  refine ⟨fun hall => hall.1.2, fun hreturn => ⟨⟨⟨⟨⟨⟨⟨⟨⟨_, rfl, hnonempty⟩, ?_⟩, ?_⟩, ?_⟩, ?_⟩, ?_⟩, ?_⟩,
    hreturn⟩, ?_⟩⟩
  · exact (harmless_methodFaults hmethods).mp hm
  · exact harmless_pathFaults.mp hp
  · exact hreference "body" (by decide)
  · exact hreference "response" (by decide)
  · exact hreference "header" (by decide)
  · exact passed_cache hcaches hc
  · exact hreference "dir_extra" (by decide)

/-- An entry without errors makes an API, and one with an error does not; but one whose `return_data`
counts as absent without being null is refused although no error is found. Warnings and notes never
refuse an entry. -/
theorem buildApi_agrees (name : Json) (entries context : Entries) {issues : Issues}
    (h : entryIssues name (.obj entries) = .ok issues) :
    ∃ outcome, buildApi name (.obj entries) context = .ok (issues.warnings, outcome) ∧
      ((∃ api, outcome = .ok api) ↔ issues.isValid = true ∧
        ∀ value, entries.get? "return_data" = some value → value = .null ∨ value.isPresent = true) := by
  have hrefused : ∀ (failure : Failure) (api : Api), Except.error failure ≠ Except.ok api := by simp
  rw [buildApi, h]
  refine ⟨_, rfl, ?_⟩
  rw [entryIssues] at h
  cases hfaults : entryFaults name (.obj entries) with
  | error failure =>
      rw [hfaults] at h
      cases h
  | ok faults =>
      rw [hfaults] at h
      obtain rfl : faults.map (Fault.issue name) = issues := Except.ok.inj h
      cases hvalid : Issues.isValid (faults.map (Fault.issue name)) with
      | false =>
          rw [if_neg Bool.false_ne_true]
          exact iff_of_false (not_exists.mpr (hrefused _)) fun h => Bool.false_ne_true h.1
      | true =>
          have hpassed := passed_apiOfEntry hfaults ((isValid_map_issue name faults).mp hvalid)
          rw [if_pos rfl, ← hpassed, eq_self, true_and]
          cases apiOfEntry name (.obj entries) with
          | valid api => exact iff_of_true ⟨api, rfl⟩ ⟨api, rfl⟩
          | invalid problems =>
              exact iff_of_false (not_exists.mpr (hrefused _)) (Checked.not_passed_invalid problems)

/-- Of an entry with a warning and a note alone an API is made. -/
theorem buildApi_agrees_cachedStream :
    let entries : Entries := [("method", .str "getSse"), ("path", .str "/user"),
      ("cache_strategy", .str "just_cache"), ("colour", .int 7), ("return_data", .null)]
    ∃ issues, entryIssues (.str "get_user") (.obj entries) = .ok issues ∧
      issues.map Issue.code = ["CACHE_STRATEGY_IGNORED", "UNKNOWN_API_KEY"] ∧
      ∃ api, buildApi (.str "get_user") (.obj entries) [] = .ok (issues.warnings, .ok api) := by
  intro entries
  have hissues : entryIssues (.str "get_user") (.obj entries) = .ok
      ([.cacheIgnored (.str "getSse"), .unknownKey "colour"].map (Fault.issue (.str "get_user"))) := rfl
  obtain ⟨outcome, hbuilt, hiff⟩ := buildApi_agrees (.str "get_user") entries [] hissues
  obtain ⟨api, rfl⟩ := hiff.mpr ⟨by decide, fun value hvalue => by
    obtain rfl := Option.some.inj hvalue
    exact .inl rfl⟩
  exact ⟨_, hissues, rfl, api, hbuilt⟩

/-- An entry whose `return_data` is empty has no faults, and no API is made of it. -/
theorem refused_without_faults :
    let entries : Entries :=
      [("method", .str "get"), ("path", .str "/user"), ("return_data", .str "")]
    entryIssues (.str "get_user") (.obj entries) = .ok [] ∧
      ¬ ∃ warnings api, buildApi (.str "get_user") (.obj entries) [] = .ok (warnings, .ok api) := by
  intro entries
  have hissues : entryIssues (.str "get_user") (.obj entries) = .ok [] := rfl
  have hrefused : apiOfEntry (.str "get_user") (.obj entries) = .invalid
      [⟨["return_data"], .notAmong (Api.ReturnData.all.map Api.ReturnData.name)⟩] := rfl
  refine ⟨hissues, ?_⟩
  rintro ⟨warnings, api, hbuilt⟩
  rw [buildApi, hissues, hrefused] at hbuilt
  obtain ⟨-, houtcome⟩ := Prod.mk.inj (Except.ok.inj hbuilt)
  have hvalid : Issues.isValid [] = true := rfl
  simp [hvalid] at houtcome

end Validation

end DartScaffold

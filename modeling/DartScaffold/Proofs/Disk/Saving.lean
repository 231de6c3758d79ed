import DartScaffold.Proofs.Disk.Frame

/-!
What a save leaves at its place: the content, or the file that already reads like it, or the directory
that stands there. This is a function of the content and of the entry that was there, and writes to
other places do not change whether the next save succeeds.
-/

namespace DartScaffold.Disk

/-- What is at a place after the content was saved there. -/
def rewritten (content : String) : Option Entry → Option Entry
  | some .directory => some .directory
  | entry =>
    match textOf entry with
    | .ok (some text) => if text = content then entry else some (.file content.toUTF8)
    | _ => some (.file content.toUTF8)

section Rewritten

variable {content : String} {entry : Option Entry}

theorem rewritten_of_same (h : textOf entry = .ok (some content)) :
    rewritten content entry = entry := by
  match entry, h with
  | some .directory, _ => rfl
  | some (.file bytes), h => simp only [rewritten, h, if_true]

theorem rewritten_of_ne (hentry : entry ≠ some .directory) (h : textOf entry ≠ .ok (some content)) :
    rewritten content entry = some (.file content.toUTF8) := by
  match entry, hentry with
  | none, _ => rfl
  | some (.file bytes), _ =>
      simp only [rewritten]
      split
      · rename_i text htext
        rw [if_neg]
        rintro rfl
        exact h htext
      · rfl

theorem textOf_toUTF8 (h : '\r' ∉ content.toList) :
    textOf (some (.file content.toUTF8)) = .ok (some content) := by
  rw [textOf, fromUTF8?_toUTF8]
  dsimp only
  rw [Text.normalizeNewlines_of_not_mem h, String.ofList_toList]

theorem textOf_rewritten (hentry : entry ≠ some .directory) (h : '\r' ∉ content.toList) :
    textOf (rewritten content entry) = .ok (some content) := by
  by_cases hsame : textOf entry = .ok (some content)
  · rw [rewritten_of_same hsame, hsame]
  · rw [rewritten_of_ne hentry hsame, textOf_toUTF8 h]

end Rewritten

/-! ### A save at its own place -/

section Save

variable {d e : Disk} {mode : WriteMode} {l : Location} {content : String}

/-- Directories that are made leave a location as it is. -/
theorem Leads.makeDirectory (h : d.Leads l) : SameFile d (d.makeDirectory l.parent).2 l := by
  have hgrows := extends_makeDirectory d l.parent
  have hfile : ∀ bytes,
      Disk.entry? (d.makeDirectory l.parent).2 (d.absoluteKey l) = some (.file bytes) ↔
        d.entry? (d.absoluteKey l) = some (.file bytes) := by
    intro bytes
    refine ⟨fun hkey => ?_, hgrows.entries _ _⟩
    exact (entry?_makeDirectory hkey).resolve_right fun hmade => absurd hmade.1 (by simp)
  refine ⟨hgrows.home, h, ⟨h.short, fun bytes hbytes => ?_⟩, hfile⟩
  rw [absoluteKey_of_home hgrows.home] at hbytes ⊢
  rw [start_of_home hgrows.home]
  exact follow_of_directories (fun key => hgrows.entries key _)
    (h.reached bytes ((hfile bytes).mp hbytes))

theorem leads_of_locate (hshort : ∀ name ∈ l.parts, ¬ nameLimit < name.utf8ByteSize)
    (h : d.locate l = .ok (d.absoluteKey l)) : d.Leads l := by
  refine ⟨hshort, fun _ _ => ?_⟩
  rw [locate] at h
  split at h
  · contradiction
  · exact h

/-- What a write that succeeds does to the entry at its place. -/
theorem write_landed (hapart : d.Apart [l]) (hleads : d.Leads l) {bytes : ByteArray}
    (h : d.write mode l bytes = (.ok (), e)) :
    e.Leads l ∧ (d.entry? (d.absoluteKey l) = some .directory ∧
        e.entry? (d.absoluteKey l) = some .directory ∨
      d.entry? (d.absoluteKey l) ≠ some .directory ∧
        e.entry? (d.absoluteKey l) = some (.file bytes)) := by
  have hmade := frame_makeDirectory d l
  have hunused := (hapart.frame hmade).unused l (by simp)
  have hkept : ∀ key ∈ d.landings l, d.entry? key ≠ some .directory →
      Disk.entry? (d.makeDirectory l.parent).2 key ≠ some .directory :=
    fun key hkey => hapart.not_directory hmade (by simp) hkey
  rw [write] at h
  generalize d.makeDirectory l.parent = made at h hmade hunused hkept
  obtain ⟨result, made⟩ := made
  dsimp only at h hmade hunused hkept
  split at h
  · exact absurd (congrArg Prod.fst h) (by simp)
  · split at h
    · exact absurd (congrArg Prod.fst h) (by simp)
    · rename_i key htarget
      obtain rfl := congrArg Prod.snd h
      obtain ⟨found, hlocate, hcases⟩ := target_eq_ok htarget
      have hfound := locate_eq_ok hlocate
      rw [absoluteKey_of_home hmade.home] at hfound
      rw [absoluteKey_of_home hmade.home] at hunused
      have hput : ∀ {key' : Key}, made.entry? key' ≠ some .directory →
          (made.put key' (.file bytes)).Leads l := by
        intro key' hkey'
        refine leads_of_locate hleads.short ?_
        rw [locate_put hlocate hkey', absoluteKey_of_home (home_put made _ _),
          absoluteKey_of_home hmade.home, hfound]
      subst hfound
      rcases hcases with ⟨rfl, hentry⟩ | ⟨rfl, hentry, -⟩
      · refine ⟨hput hentry, .inr ⟨fun hd => hentry (hmade.directory _ hd), ?_⟩⟩
        refine entry?_put_self ?_ made _
        intro hroot
        rw [hroot] at hentry
        exact hentry rfl
      · refine ⟨hput hunused, .inl ⟨Classical.not_not.mp fun hd => ?_, ?_⟩⟩
        · exact hkept _ (absoluteKey_mem_landings d l) hd hentry
        · rw [entry?_put_of_ne (by simp), hentry]

/-- A save that succeeds. -/
theorem save_landed (hapart : d.Apart [l]) (hleads : d.Leads l) {saved : Saved}
    (h : d.save mode l content = (.ok saved, e)) :
    e.Leads l ∧ isOverlong l = false ∧
      e.entry? (d.absoluteKey l) = rewritten content (d.entry? (d.absoluteKey l)) := by
  have hlong : isOverlong l = false := by
    refine Bool.eq_false_iff.mpr fun hlong => ?_
    rw [save, textIfFile_of_overlong hlong] at h
    exact absurd (congrArg Prod.fst h) (by simp)
  have htext := hleads.textIfFile_eq hlong
  rcases save_eq_ok h with ⟨rfl, hsame⟩ | hwritten
  · refine ⟨hleads, hlong, ?_⟩
    rw [rewritten_of_same (htext.symm.trans hsame)]
  · obtain ⟨hleads', hcases⟩ := write_landed hapart hleads hwritten
    refine ⟨hleads', hlong, ?_⟩
    rcases hcases with ⟨hd, he⟩ | ⟨hd, he⟩
    · rw [hd, he]
      rfl
    · rw [he]
      by_cases hsame : textOf (d.entry? (d.absoluteKey l)) = .ok (some content)
      · -- nothing is written where the file reads so already
        obtain ⟨_, hsave, -⟩ := save_of_same (htext.trans hsame) mode
        rw [hsave] at h
        obtain rfl : d = e := congrArg Prod.snd h
        rw [rewritten_of_same hsame, he]
      · rw [rewritten_of_ne hd hsame]

theorem save_failed (hleads : d.Leads l) {failure : Failure}
    (h : d.save mode l content = (.error failure, e)) : SameFile d e l := by
  have hself : SameFile d d l := ⟨rfl, hleads, hleads, fun _ => Iff.rfl⟩
  rw [save] at h
  split at h
  · obtain rfl : d = e := congrArg Prod.snd h
    exact hself
  · dsimp only at h
    split at h
    · rw [writeText, write] at h
      have hmade := hleads.makeDirectory
      generalize d.makeDirectory l.parent = made at h hmade
      obtain ⟨result, made⟩ := made
      dsimp only at h hmade
      split at h
      · obtain rfl : made = e := congrArg Prod.snd h
        exact hmade
      · split at h
        · obtain rfl : made = e := congrArg Prod.snd h
          exact hmade
        · exact absurd (congrArg Prod.fst h) (by simp [Except.map])
    · exact absurd (congrArg Prod.fst h) (by simp)

theorem path_of_save {saved : Saved} (h : d.save mode l content = (.ok saved, e)) :
    saved.path = l.toString := by
  rw [save] at h
  split at h
  · exact absurd (congrArg Prod.fst h) (by simp)
  · dsimp only at h
    split at h
    · have hresult := congrArg Prod.fst h
      dsimp only at hresult
      cases hwritten : (d.writeText mode l content).1 with
      | error failure =>
          rw [hwritten] at hresult
          contradiction
      | ok _ =>
          rw [hwritten] at hresult
          obtain rfl := Except.ok.inj hresult
          rfl
    · obtain rfl := Except.ok.inj (congrArg Prod.fst h)
      rfl

/-- Lone surrogates are the only reason for a text with twins not to be saved as its first twin is. -/
theorem saveTwin_cases (d : Disk) (mode : WriteMode) (l : Location) (content : Twin String) :
    d.saveTwin mode l content = d.save mode l content.first ∨
      ∃ failure, (d.saveTwin mode l content).1 = .error failure ∧
        ((d.saveTwin mode l content).2 = d ∨
          (d.saveTwin mode l content).2 = (d.makeDirectory l.parent).2) := by
  rw [saveTwin]
  split
  · refine .inr ?_
    rw [refuse]
    split
    · exact ⟨_, rfl, .inl rfl⟩
    · dsimp only
      cases (d.makeDirectory l.parent).1 with
      | error e => exact ⟨_, rfl, .inr rfl⟩
      | ok _ => exact ⟨_, rfl, .inr rfl⟩
  · exact .inl rfl

theorem saveTwin_landed (hapart : d.Apart [l]) (hleads : d.Leads l) {content : Twin String}
    {saved : Saved} (h : d.saveTwin mode l content = (.ok saved, e)) :
    e.Leads l ∧ isOverlong l = false ∧
      e.entry? (d.absoluteKey l) = rewritten content.first (d.entry? (d.absoluteKey l)) := by
  rcases saveTwin_cases d mode l content with hsave | ⟨failure, hfail, -⟩
  · exact save_landed hapart hleads (hsave.symm.trans h)
  · rw [h] at hfail
    contradiction

theorem path_of_saveTwin {content : Twin String} {saved : Saved}
    (h : d.saveTwin mode l content = (.ok saved, e)) : saved.path = l.toString := by
  rcases saveTwin_cases d mode l content with hsave | ⟨failure, hfail, -⟩
  · exact path_of_save (hsave.symm.trans h)
  · rw [h] at hfail
    contradiction

theorem saveTwin_failed (hleads : d.Leads l) {content : Twin String} {failure : Failure}
    (h : d.saveTwin mode l content = (.error failure, e)) : SameFile d e l := by
  rcases saveTwin_cases d mode l content with hsave | ⟨_, -, hdisk | hdisk⟩
  · exact save_failed hleads (hsave.symm.trans h)
  · rw [h] at hdisk
    obtain rfl : e = d := hdisk
    exact ⟨rfl, hleads, hleads, fun _ => Iff.rfl⟩
  · rw [h] at hdisk
    obtain rfl : e = (d.makeDirectory l.parent).2 := hdisk
    exact hleads.makeDirectory

end Save

/-! ### Writes to other places -/

section Frame

variable {places : List Location} {d e : Disk} {mode : WriteMode} {l : Location}

/-- A way that can be made can be made where more directories are, and no more files on it. -/
theorem makeWay_ok_of_frame {here : Key} {names : List String}
    (hdirectory : ∀ key, d.entry? key = some .directory → e.entry? key = some .directory)
    (hfile : ∀ key ∈ wayKeys here names, ∀ bytes, e.entry? key = some (.file bytes) →
      d.entry? key = some (.file bytes))
    (h : (d.makeWay here names).1 = .ok ()) : (e.makeWay here names).1 = .ok () := by
  induction names generalizing d e here with
  | nil => rfl
  | cons name names ih =>
      rw [makeWay] at h ⊢
      rw [wayKeys] at hfile
      by_cases hname : name = ".."
      · rw [if_pos hname] at h hfile ⊢
        exact ih hdirectory hfile h
      · rw [if_neg hname] at h hfile ⊢
        by_cases hlong : nameLimit < name.utf8ByteSize
        · rw [if_pos hlong] at h
          contradiction
        · rw [if_neg hlong] at h ⊢
          dsimp only at h ⊢
          obtain ⟨hfirst, hrest⟩ := List.forall_mem_cons.mp hfile
          have hroot : here ++ [name] ≠ [] := by simp
          cases hd : d.entry? (here ++ [name]) with
          | some entry =>
              cases entry with
              | file bytes =>
                  rw [hd] at h
                  contradiction
              | directory =>
                  rw [hd] at h
                  rw [hdirectory _ hd]
                  exact ih hdirectory hrest h
          | none =>
              rw [hd] at h
              dsimp only at h
              -- the directory that is made is there in both
              have hput : ∀ {f : Disk}, (∀ key, e.entry? key = some .directory →
                    f.entry? key = some .directory) → f.entry? (here ++ [name]) = some .directory →
                  ∀ key, entry? (d.put (here ++ [name]) .directory) key = some .directory →
                    f.entry? key = some .directory := by
                intro f hf hmade key hkey
                by_cases hne : key = here ++ [name]
                · rw [hne, hmade]
                · rw [entry?_put_of_ne hne] at hkey
                  exact hf key (hdirectory key hkey)
              have hold : ∀ key bytes, entry? (d.put (here ++ [name]) .directory) key =
                  some (.file bytes) ↔ key ≠ here ++ [name] ∧ d.entry? key = some (.file bytes) := by
                intro key bytes
                by_cases hne : key = here ++ [name]
                · rw [hne, entry?_put_self hroot]
                  simp
                · rw [entry?_put_of_ne hne]
                  simp [hne]
              cases he : e.entry? (here ++ [name]) with
              | some entry =>
                  cases entry with
                  | file bytes => exact absurd (hd.symm.trans (hfirst bytes he)) (by simp)
                  | directory =>
                      refine ih (hput (fun _ h => h) he) (fun key hkey bytes hbytes => ?_) h
                      refine (hold key bytes).mpr ⟨?_, hrest key hkey bytes hbytes⟩
                      rintro rfl
                      exact absurd (he.symm.trans hbytes) (by simp)
              | none =>
                  dsimp only
                  have hself : entry? (e.put (here ++ [name]) .directory) (here ++ [name]) =
                      some .directory := entry?_put_self hroot e _
                  refine ih (hput (fun key hkey => ?_) hself) (fun key hkey bytes hbytes => ?_) h
                  · by_cases hne : key = here ++ [name]
                    · rw [hne, hself]
                    · rwa [entry?_put_of_ne hne]
                  · have hne : key ≠ here ++ [name] := by
                      rintro rfl
                      exact absurd (hself.symm.trans hbytes) (by simp)
                    rw [entry?_put_of_ne hne] at hbytes
                    exact (hold key bytes).mpr ⟨hne, hrest key hkey bytes hbytes⟩

theorem locate_of_directories {key : Key} (hhome : e.home = d.home)
    (hdirectory : ∀ key, d.entry? key = some .directory → e.entry? key = some .directory)
    (h : d.locate l = .ok key) : e.locate l = .ok key := by
  rw [locate] at h ⊢
  split at h
  · contradiction
  · rename_i hlong
    rw [if_neg hlong, start_of_home hhome]
    exact follow_of_directories hdirectory h

theorem target_of_directories {key : Key} (hhome : e.home = d.home)
    (hdirectory : ∀ key, d.entry? key = some .directory → e.entry? key = some .directory)
    (h : d.target mode l = .ok key) (hkey : d.locate l = .ok key)
    (he : e.entry? key ≠ some .directory) : e.target mode l = .ok key := by
  have hkey' := locate_of_directories hhome hdirectory hkey
  cases mode with
  | inPlace =>
      simp [target, bind, Except.bind, hkey']
  | replace =>
      simp only [target, bind, Except.bind] at h ⊢
      split at h
      · contradiction
      · rename_i parent hparent
        rw [locate_of_directories hhome hdirectory hparent]
        dsimp only at h ⊢
        split at h
        · contradiction
        · rename_i hshort
          rw [if_neg hshort, hkey']
          dsimp only
          split
          · rename_i hfound
            exact absurd hfound he
          · rfl

/-- A file that can be written can be written after other writes. -/
theorem Writable.frame (h : d.Writable mode l) (hapart : d.Apart places)
    (hframe : Frame places d e) (hl : l ∈ places) : e.Writable mode l := by
  obtain ⟨hlong, hway⟩ := makeDirectory_fst_eq_ok h.made
  have hkey : e.absoluteKey l = d.absoluteKey l := absoluteKey_of_home hframe.home l
  have hmade : (e.makeDirectory l.parent).1 = .ok () := by
    have hd : (d.makeWay (d.start l.parent) l.parent.parts).1 = .ok () := by
      have hmade := h.made
      rw [makeDirectory, hlong, if_neg (by simp)] at hmade
      cases hresult : (d.makeWay (d.start l.parent) l.parent.parts).1 with
      | ok _ => rfl
      | error cause => simp [hresult] at hmade
    have he : (e.makeWay (d.start l.parent) l.parent.parts).1 = .ok () := by
      refine makeWay_ok_of_frame hframe.directory (fun key hkey bytes hbytes => ?_) hd
      refine (hframe.file key (fun other hother hland => ?_) bytes).mp hbytes
      exact hapart.ways other hother key hland l hl hkey
    simp [makeDirectory, hlong, start_of_home hframe.home, he]
  have hhome := (extends_makeDirectory d l.parent).home
  have hhome' := (extends_makeDirectory e l.parent).home
  have hsame : (e.makeDirectory l.parent).2.home = (d.makeDirectory l.parent).2.home := by
    rw [hhome, hhome', hframe.home]
  -- every directory that leads to the file is there now
  have hdirectory : ∀ key, Disk.entry? (d.makeDirectory l.parent).2 key = some .directory →
      Disk.entry? (e.makeDirectory l.parent).2 key = some .directory := by
    intro key hdir
    rcases entry?_makeDirectory hdir with hdir | ⟨-, hon⟩
    · exact (extends_makeDirectory e l.parent).entries _ _ (hframe.directory key hdir)
    · have hway' := (makeDirectory_fst_eq_ok hmade).2
      rw [start_of_home hframe.home] at hway'
      exact hway'.directory hon
  have hvacant : Disk.entry? (e.makeDirectory l.parent).2 (d.absoluteKey l) ≠ some .directory := by
    have hd : d.entry? (d.absoluteKey l) ≠ some .directory := by
      intro hdir
      have hv := h.vacant
      rw [Vacant, absoluteKey_of_home hhome] at hv
      exact hv ((extends_makeDirectory d l.parent).entries _ _ hdir)
    have hland := absoluteKey_mem_landings d l
    have he := hapart.not_directory hframe hl hland hd
    refine (hapart.frame hframe).not_directory ((frame_makeDirectory e l).mono ?_) hl ?_ he
    · simpa using hl
    · rwa [landings_of_home hframe.home]
  obtain ⟨found, hlocate, -⟩ := target_eq_ok h.target
  have hfound := locate_eq_ok hlocate
  rw [absoluteKey_of_home hhome] at hfound
  subst hfound
  refine ⟨hmade, ?_, ?_⟩
  · rw [hkey]
    exact target_of_directories hsame hdirectory h.target hlocate hvacant
  · rwa [Vacant, absoluteKey_of_home hhome', hkey]

end Frame

end DartScaffold.Disk

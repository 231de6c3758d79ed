import DartScaffold.Proofs.Disk.Writable

/-!
What writing leaves alone. Writes to some places put files where these places lead, or under a
temporary name into a directory that stands there, and make the directories on the way; all else on
the disk is as before. `Frame` says so of any number of writes, whether or not they succeed.

What a location reads as is then a matter of the one entry that its names spell, as long as the file
there is reached by walking (`Leads`): a walk can fail on the way over a directory that is not there
and that its names take back.
-/

namespace DartScaffold.Disk

/-! ### Ways -/

/-- The directories that a way enters, each of which is made if it is missing. -/
def wayKeys (here : Key) : List String → List Key
  | [] => []
  | name :: rest =>
    if name = ".." then wayKeys here.dropLast rest
    else (here ++ [name]) :: wayKeys (here ++ [name]) rest

/-- The directories on the way to a file. -/
def ways (d : Disk) (l : Location) : List Key :=
  wayKeys (d.start l.parent) l.parent.parts

/-- Where the bytes go that are written to `l`. -/
def landings (d : Disk) (l : Location) : List Key :=
  [d.absoluteKey l, d.absoluteKey l ++ [temporaryName l.name]]

section Home

variable {d e : Disk}

theorem start_of_home (h : e.home = d.home) (l : Location) : e.start l = d.start l := by
  simp [start, h]

theorem ways_of_home (h : e.home = d.home) (l : Location) : e.ways l = d.ways l := by
  rw [ways, ways, start_of_home h]

theorem landings_of_home (h : e.home = d.home) (l : Location) : e.landings l = d.landings l := by
  rw [landings, landings, absoluteKey_of_home h]

end Home

theorem absoluteKey_mem_landings (d : Disk) (l : Location) : d.absoluteKey l ∈ d.landings l :=
  List.mem_cons_self

/-- Making a way makes directories on it and nothing else. -/
theorem entry?_makeWay {d : Disk} {here key : Key} {names : List String} {entry : Entry}
    (h : Disk.entry? (d.makeWay here names).2 key = some entry) :
    d.entry? key = some entry ∨ entry = .directory ∧ key ∈ wayKeys here names := by
  induction names generalizing d here with
  | nil => exact .inl h
  | cons name names ih =>
      rw [makeWay] at h
      rw [wayKeys]
      by_cases hname : name = ".."
      · rw [if_pos hname] at h ⊢
        exact ih h
      · rw [if_neg hname] at h ⊢
        split at h
        · exact .inl h
        · dsimp only at h
          have hrest : ∀ {d' : Disk}, Disk.entry? (d'.makeWay (here ++ [name]) names).2 key = some entry →
              d'.entry? key = some entry ∨
                entry = .directory ∧ key ∈ (here ++ [name]) :: wayKeys (here ++ [name]) names := by
            intro d' h
            exact (ih h).imp_right (And.imp_right (List.mem_cons_of_mem _))
          split at h
          · exact hrest h
          · exact .inl h
          · rcases hrest h with hput | hmade
            · by_cases hkey : key = here ++ [name]
              · subst hkey
                rw [entry?_put_self (by simp)] at hput
                exact .inr ⟨(Option.some.inj hput).symm, List.mem_cons_self⟩
              · exact .inl (by rwa [entry?_put_of_ne hkey] at hput)
            · exact .inr hmade

theorem entry?_makeDirectory {d : Disk} {l : Location} {key : Key} {entry : Entry}
    (h : Disk.entry? (d.makeDirectory l.parent).2 key = some entry) :
    d.entry? key = some entry ∨ entry = .directory ∧ key ∈ d.ways l := by
  rw [makeDirectory] at h
  split at h
  · exact .inl h
  · exact entry?_makeWay h

theorem Way.directory {d : Disk} {here key : Key} {names : List String} (h : d.Way here names)
    (hkey : key ∈ wayKeys here names) : d.entry? key = some .directory := by
  induction h with
  | nil => contradiction
  | up _ ih => exact ih (by simpa [wayKeys] using hkey)
  | down hname _ hentry _ ih =>
      rw [wayKeys, if_neg hname] at hkey
      rcases List.mem_cons.mp hkey with rfl | hkey
      · exact hentry
      · exact ih hkey

/-! ### Frames -/

/-- `e` is `d` after writes to `places`. -/
structure Frame (places : List Location) (d e : Disk) : Prop where
  home : e.home = d.home
  directory : ∀ key, d.entry? key = some .directory → e.entry? key = some .directory
  file : ∀ key, (∀ l ∈ places, key ∉ d.landings l) →
    ∀ bytes, e.entry? key = some (.file bytes) ↔ d.entry? key = some (.file bytes)
  made : ∀ key, e.entry? key = some .directory →
    d.entry? key = some .directory ∨ ∃ l ∈ places, key ∈ d.ways l

section Frame

variable {places more : List Location} {d e f : Disk}

theorem Frame.refl (places : List Location) (d : Disk) : Frame places d d :=
  ⟨rfl, fun _ h => h, fun _ _ _ => Iff.rfl, fun _ h => .inl h⟩

theorem Frame.trans (h : Frame places d e) (h' : Frame places e f) : Frame places d f where
  home := h'.home.trans h.home
  directory key hkey := h'.directory key (h.directory key hkey)
  file key hkey bytes := by
    have hkey' : ∀ l ∈ places, key ∉ e.landings l := by
      intro l hl
      rw [landings_of_home h.home]
      exact hkey l hl
    exact (h'.file key hkey' bytes).trans (h.file key hkey bytes)
  made key hkey := by
    rcases h'.made key hkey with hkey | ⟨l, hl, hkey⟩
    · exact h.made key hkey
    · exact .inr ⟨l, hl, ways_of_home h.home l ▸ hkey⟩

theorem Frame.mono (h : Frame places d e) (hsub : places ⊆ more) : Frame more d e where
  home := h.home
  directory := h.directory
  file key hkey := h.file key fun l hl => hkey l (hsub hl)
  made key hkey := (h.made key hkey).imp_right fun ⟨l, hl, hkey⟩ => ⟨l, hsub hl, hkey⟩

theorem frame_makeDirectory (d : Disk) (l : Location) :
    Frame [l] d (d.makeDirectory l.parent).2 := by
  have hgrows := extends_makeDirectory d l.parent
  refine ⟨hgrows.home, fun key => hgrows.entries key _, fun key _ bytes => ⟨fun hkey => ?_, ?_⟩,
    fun key hkey => ?_⟩
  · exact (entry?_makeDirectory hkey).resolve_right fun hmade => nomatch hmade.1
  · exact hgrows.entries key _
  · exact (entry?_makeDirectory hkey).imp_right fun hmade => ⟨l, by simp, hmade.2⟩

/-- A file that lands where no directory is. -/
theorem frame_put {l : Location} {key : Key} (hland : key ∈ d.landings l)
    (hkey : d.entry? key ≠ some .directory) (bytes : ByteArray) :
    Frame [l] d (d.put key (.file bytes)) := by
  have hother : ∀ other, other ≠ key → entry? (d.put key (.file bytes)) other = d.entry? other :=
    fun other hne => entry?_put_of_ne hne d _
  have hroot : key ≠ [] := by
    rintro rfl
    exact hkey rfl
  refine ⟨rfl, fun other h => ?_, fun other h found => ?_, fun other h => .inl ?_⟩
  · rw [hother other]
    · exact h
    · rintro rfl
      exact hkey h
  · rw [hother other]
    rintro rfl
    exact h l (by simp) hland
  · by_cases hne : other = key
    · subst hne
      rw [entry?_put_self hroot] at h
      exact absurd (Option.some.inj h) (by simp)
    · rwa [hother other hne] at h

end Frame

/-! ### Places that are out of each other's way -/

/-- No place is on the way to another, and no directory has the name of a temporary file. -/
structure Apart (d : Disk) (places : List Location) : Prop where
  ways : ∀ l ∈ places, ∀ key ∈ d.landings l, ∀ other ∈ places, key ∉ d.ways other
  unused : ∀ l ∈ places, d.entry? (d.absoluteKey l ++ [temporaryName l.name]) ≠ some .directory

section Apart

variable {places : List Location} {d e : Disk} {l : Location}

theorem Apart.not_directory (h : d.Apart places) (hframe : Frame places d e) (hl : l ∈ places)
    {key : Key} (hkey : key ∈ d.landings l) (hd : d.entry? key ≠ some .directory) :
    e.entry? key ≠ some .directory := by
  intro he
  rcases hframe.made key he with hdirectory | ⟨other, hother, hway⟩
  · exact hd hdirectory
  · exact h.ways l hl key hkey other hother hway

theorem Apart.frame (h : d.Apart places) (hframe : Frame places d e) : e.Apart places where
  ways l hl key hkey other hother := by
    rw [ways_of_home hframe.home]
    rw [landings_of_home hframe.home] at hkey
    exact h.ways l hl key hkey other hother
  unused l hl := by
    rw [absoluteKey_of_home hframe.home]
    exact h.not_directory hframe hl (by simp [landings]) (h.unused l hl)

theorem Apart.mono (h : d.Apart places) {fewer : List Location} (hsub : fewer ⊆ places) :
    d.Apart fewer where
  ways l hl key hkey other hother := h.ways l (hsub hl) key hkey other (hsub hother)
  unused l hl := h.unused l (hsub hl)

theorem Apart.singleton (h : d.Apart places) (hl : l ∈ places) : d.Apart [l] :=
  h.mono (by simpa using hl)

/-- Where none of the writes lands, but another could, all is as before. -/
theorem Apart.entry?_eq (h : d.Apart places) {fewer : List Location} (hsub : fewer ⊆ places)
    (hframe : Frame fewer d e) (hl : l ∈ places) {key : Key} (hkey : key ∈ d.landings l)
    (hnot : ∀ other ∈ fewer, key ∉ d.landings other) : e.entry? key = d.entry? key := by
  have hdirectory : e.entry? key = some .directory → d.entry? key = some .directory := by
    intro he
    rcases hframe.made key he with hd | ⟨other, hother, hway⟩
    · exact hd
    · exact absurd hway (h.ways l hl key hkey other (hsub hother))
  cases hd : d.entry? key with
  | some entry =>
      cases entry with
      | directory => exact hframe.directory key hd
      | file bytes => exact (hframe.file key hnot bytes).mpr hd
  | none =>
      cases he : e.entry? key with
      | none => rfl
      | some entry =>
          cases entry with
          | directory => exact absurd (hd.symm.trans (hdirectory he)) (by simp)
          | file bytes => exact absurd (hd.symm.trans ((hframe.file key hnot bytes).mp he)) (by simp)

/-- A write touches its own place, whether or not it succeeds. -/
theorem frame_write (h : d.Apart [l]) (mode : WriteMode) (bytes : ByteArray) :
    Frame [l] d (d.write mode l bytes).2 := by
  have hmade := frame_makeDirectory d l
  have hapart := h.frame hmade
  rw [write]
  generalize d.makeDirectory l.parent = made at hmade hapart
  obtain ⟨result, made⟩ := made
  dsimp only at hmade hapart ⊢
  split
  · exact hmade
  · split
    · exact hmade
    · rename_i key htarget
      obtain ⟨found, hlocate, hcases⟩ := target_eq_ok htarget
      obtain rfl := locate_eq_ok hlocate
      rcases hcases with ⟨rfl, hfound⟩ | ⟨rfl, -⟩
      · exact hmade.trans (frame_put (absoluteKey_mem_landings _ _) hfound bytes)
      · exact hmade.trans (frame_put (by simp [landings]) (hapart.unused l (by simp)) bytes)

theorem frame_save (h : d.Apart [l]) (mode : WriteMode) (content : String) :
    Frame [l] d (d.save mode l content).2 := by
  have hwrite := frame_write h mode content.toUTF8
  rw [save]
  split
  · exact .refl _ _
  · dsimp only
    split
    · exact hwrite
    · exact .refl _ _

theorem frame_saveTwin (h : d.Apart [l]) (mode : WriteMode) (content : Twin String) :
    Frame [l] d (d.saveTwin mode l content).2 := by
  rw [saveTwin]
  split
  · rw [refuse]
    split
    · exact .refl _ _
    · exact frame_makeDirectory d l
  · exact frame_save h mode _

end Apart

/-! ### What a location reads as -/

/-- The text of a file, if the entry is one. -/
def textOf : Option Entry → Except Failure (Option String)
  | some (.file bytes) =>
    match String.fromUTF8? bytes with
    | some text => .ok (some (String.ofList (Text.normalizeNewlines text.toList)))
    | none => .error .notUtf8
  | _ => .ok none

/-- The file that the names of `l` spell, if there is one, is reached by walking. -/
structure Leads (d : Disk) (l : Location) : Prop where
  short : ∀ name ∈ l.parts, ¬ nameLimit < name.utf8ByteSize
  reached : ∀ bytes, d.entry? (d.absoluteKey l) = some (.file bytes) →
    d.follow (d.start l) l.parts = .ok (d.absoluteKey l)

section Leads

variable {places : List Location} {d e : Disk} {l : Location}

/-- A walk goes on where more directories are. -/
theorem follow_of_directories {here key : Key} {names : List String}
    (hdirectory : ∀ key, d.entry? key = some .directory → e.entry? key = some .directory)
    (h : d.follow here names = .ok key) : e.follow here names = .ok key := by
  induction names generalizing here with
  | nil => simpa [follow] using h
  | cons name names ih =>
      have hhere : d.entry? here = some .directory := by
        rw [follow] at h
        split at h <;> first | contradiction | assumption
      rw [follow, hhere] at h
      rw [follow, hdirectory here hhere]
      dsimp only at h ⊢
      split at h
      · rename_i hname
        rw [if_pos hname]
        exact ih h
      · rename_i hname
        rw [if_neg hname]
        split at h
        · contradiction
        · rename_i hlong
          rw [if_neg hlong]
          exact ih h

theorem follow_ne_nameTooLong {here : Key} {names : List String}
    (h : ∀ name ∈ names, ¬ nameLimit < name.utf8ByteSize) :
    d.follow here names ≠ .error .nameTooLong := by
  induction names generalizing here with
  | nil => simp [follow]
  | cons name names ih =>
      obtain ⟨hname, hnames⟩ := List.forall_mem_cons.mp h
      rw [follow]
      split
      · simp
      · simp
      · rw [if_neg hname]
        split
        · exact ih hnames
        · exact ih hnames

/-- What is at a location is a file if one is spelled there, and no file otherwise. -/
theorem Leads.entryAt (h : d.Leads l) (hlong : isOverlong l = false) :
    (∃ bytes, d.entryAt l = .ok (.file bytes) ∧
        d.entry? (d.absoluteKey l) = some (.file bytes)) ∨
      (d.entryAt l = .ok .directory ∨ ∃ cause, d.entryAt l = .error cause ∧ cause ≠ .nameTooLong) ∧
        ∀ bytes, d.entry? (d.absoluteKey l) ≠ some (.file bytes) := by
  have hlocate : d.locate l = d.follow (d.start l) l.parts := by simp [locate, hlong]
  cases hfollow : d.follow (d.start l) l.parts with
  | error cause =>
      refine .inr ⟨.inr ⟨cause, by simp [Disk.entryAt, hlocate, hfollow, bind, Except.bind], ?_⟩, ?_⟩
      · rintro rfl
        exact follow_ne_nameTooLong h.short hfollow
      · intro bytes hfile
        rw [h.reached bytes hfile] at hfollow
        contradiction
  | ok key =>
      have hkey := locate_eq_ok (hlocate.trans hfollow)
      subst hkey
      cases hentry : d.entry? (d.absoluteKey l) with
      | none =>
          refine .inr ⟨.inr ⟨.notFound, ?_, by simp⟩, by simp⟩
          simp [Disk.entryAt, hlocate, hfollow, hentry, bind, Except.bind]
      | some entry =>
          cases entry with
          | directory =>
              refine .inr ⟨.inl ?_, by simp⟩
              simp [Disk.entryAt, hlocate, hfollow, hentry, bind, Except.bind]
          | file bytes =>
              refine .inl ⟨bytes, ?_, rfl⟩
              simp [Disk.entryAt, hlocate, hfollow, hentry, bind, Except.bind]

theorem textIfFile_of_overlong (hlong : isOverlong l = true) :
    d.textIfFile l = .error (.disk ⟨.nameTooLong, l⟩) := by
  simp [textIfFile, isFile, holds, Disk.entryAt, locate, hlong, bind, Except.bind]

theorem textOf_of_not_file {entry : Option Entry} (h : ∀ bytes, entry ≠ some (.file bytes)) :
    textOf entry = .ok none := by
  match entry, h with
  | none, _ => rfl
  | some .directory, _ => rfl
  | some (.file bytes), h => exact absurd rfl (h bytes)

theorem Leads.isFile_eq (h : d.Leads l) (hlong : isOverlong l = false) :
    d.isFile l = .ok ((d.entry? (d.absoluteKey l)).any fun entry => entry matches .file _) := by
  rcases h.entryAt hlong with ⟨bytes, hat, hentry⟩ | ⟨hat, hentry⟩
  · simp [isFile, holds, hat, hentry]
  · have hnone : (d.entry? (d.absoluteKey l)).any (fun entry => entry matches .file _) = false := by
      rw [Option.any_eq_false]
      rintro (_ | bytes) hfile
      · simp
      · exact absurd hfile (hentry bytes)
    rw [hnone]
    rcases hat with hat | ⟨cause, hat, hcause⟩
    · simp [isFile, holds, hat]
    · cases cause with
      | nameTooLong => exact absurd rfl hcause
      | _ => simp [isFile, holds, hat]

theorem Leads.textIfFile_eq (h : d.Leads l) (hlong : isOverlong l = false) :
    d.textIfFile l = textOf (d.entry? (d.absoluteKey l)) := by
  have hfile := h.isFile_eq hlong
  rcases h.entryAt hlong with ⟨bytes, hat, hentry⟩ | ⟨-, hentry⟩
  · rw [hentry, textOf]
    cases hbytes : String.fromUTF8? bytes with
    | some text => rw [textIfFile_of_entryAt hat hbytes]
    | none =>
        simp [textIfFile, hfile, hentry, readText, read, hat, hbytes, bind, Except.bind, throw,
          throwThe, MonadExceptOf.throw]
  · rw [textOf_of_not_file hentry]
    cases hany : (d.entry? (d.absoluteKey l)).any fun entry => entry matches .file _ with
    | false =>
        rw [hany] at hfile
        simp [textIfFile, hfile, bind, Except.bind, pure, Except.pure]
    | true =>
        obtain ⟨_ | bytes, hentry', hmatch⟩ := (Option.any_eq_true _ _).mp hany
        · contradiction
        · exact absurd hentry' (hentry bytes)

/-- Two disks with the same file there. -/
structure SameFile (d e : Disk) (l : Location) : Prop where
  home : e.home = d.home
  leads : d.Leads l
  leads' : e.Leads l
  file : ∀ bytes, e.entry? (d.absoluteKey l) = some (.file bytes) ↔
    d.entry? (d.absoluteKey l) = some (.file bytes)

theorem SameFile.isFile_eq (h : SameFile d e l) : e.isFile l = d.isFile l := by
  cases hlong : isOverlong l with
  | true => simp [isFile, holds, Disk.entryAt, locate, hlong, bind, Except.bind]
  | false =>
      rw [h.leads.isFile_eq hlong, h.leads'.isFile_eq hlong, absoluteKey_of_home h.home]
      congr 1
      rw [Bool.eq_iff_iff, Option.any_eq_true, Option.any_eq_true]
      constructor
      · rintro ⟨_ | bytes, hentry, hmatch⟩
        · contradiction
        · exact ⟨_, (h.file bytes).mp hentry, rfl⟩
      · rintro ⟨_ | bytes, hentry, hmatch⟩
        · contradiction
        · exact ⟨_, (h.file bytes).mpr hentry, rfl⟩

theorem SameFile.textOf_eq (h : SameFile d e l) :
    textOf (e.entry? (d.absoluteKey l)) = textOf (d.entry? (d.absoluteKey l)) := by
  by_cases hfile : ∃ bytes, d.entry? (d.absoluteKey l) = some (.file bytes)
  · obtain ⟨bytes, hbytes⟩ := hfile
    rw [hbytes, (h.file bytes).mpr hbytes]
  · have hd : ∀ bytes, d.entry? (d.absoluteKey l) ≠ some (.file bytes) :=
      fun bytes hbytes => hfile ⟨bytes, hbytes⟩
    rw [textOf_of_not_file hd, textOf_of_not_file fun bytes hbytes => hd bytes ((h.file bytes).mp hbytes)]

theorem SameFile.textIfFile_eq (h : SameFile d e l) : e.textIfFile l = d.textIfFile l := by
  cases hlong : isOverlong l with
  | true => rw [textIfFile_of_overlong hlong, textIfFile_of_overlong hlong]
  | false =>
      rw [h.leads.textIfFile_eq hlong, h.leads'.textIfFile_eq hlong, absoluteKey_of_home h.home,
        h.textOf_eq]

/-- The disks read alike at `l`. -/
structure SameText (d e : Disk) (l : Location) : Prop where
  isFile_eq : e.isFile l = d.isFile l
  textIfFile_eq : e.textIfFile l = d.textIfFile l

theorem SameFile.sameText (h : SameFile d e l) : SameText d e l :=
  ⟨h.isFile_eq, h.textIfFile_eq⟩

/-- Where no place of the frame goes, a location reads as before. -/
theorem Leads.sameFile (h : d.Leads l) (hframe : Frame places d e)
    (hl : ∀ place ∈ places, d.absoluteKey l ∉ d.landings place) : SameFile d e l where
  home := hframe.home
  leads := h
  leads' := by
    refine ⟨h.short, fun bytes hbytes => ?_⟩
    rw [absoluteKey_of_home hframe.home] at hbytes ⊢
    rw [start_of_home hframe.home]
    exact follow_of_directories hframe.directory
      (h.reached bytes ((hframe.file _ hl bytes).mp hbytes))
  file := hframe.file _ hl

/-- Whatever is written to the places, `l` reads the same. -/
def Steady (d : Disk) (places : List Location) (l : Location) : Prop :=
  ∀ e, Frame places d e → SameText d e l

theorem Leads.steady (h : d.Leads l) (hl : ∀ place ∈ places, d.absoluteKey l ∉ d.landings place) :
    d.Steady places l :=
  fun _ hframe => (h.sameFile hframe hl).sameText

end Leads

end DartScaffold.Disk

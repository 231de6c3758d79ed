import DartScaffold.Proofs.Aggregate.OnDisk
import DartScaffold.Proofs.Disk.Walk

/-!
Two writers on one disk. `Touched` says what writes to some places can have made of a disk, and `Beside`
what a disk is that both of two writers worked on: where one of them writes it is as this one would have
left it alone, and elsewhere it has the directories of both. As long as the walks of one writer are clear
of the other (`Clear`), it reads and writes with the same success as if it were alone.
-/

namespace DartScaffold

namespace Disk

/-- Where the bytes go that are written to the places. -/
def landingsOf (d : Disk) (places : List Location) : List Key :=
  places.flatMap d.landings

/-- The directories on the ways to the places. -/
def waysOf (d : Disk) (places : List Location) : List Key :=
  places.flatMap d.ways

/-- What writes to `places` that began on `d` can have made of it. -/
structure Touched (places : List Location) (d e : Disk) : Prop where
  home : e.home = d.home
  standing : e.Standing
  kept : ∀ key, d.entry? key ≠ none → e.entry? key ≠ none
  entry : ∀ key, key ∉ d.landingsOf places → e.entry? key = d.entry? key ∨
    d.entry? key = none ∧ e.entry? key = some .directory ∧ key ∈ d.waysOf places

/-- The walk of `l` is clear of writes to `places`: none of their files is on it, and from a directory
that they may have made it goes down. -/
def Clear (d : Disk) (places : List Location) (l : Location) : Prop :=
  ∀ step ∈ d.walk l, step.1 ∉ d.landingsOf places ∧
    (d.entry? step.1 = none → step.1 ∈ d.waysOf places → LeadDown step.2)

/-- Writes to `places` put nothing on the walk of `l`, not even a directory. -/
def Untouched (d : Disk) (places : List Location) (l : Location) : Prop :=
  ∀ step ∈ d.walk l, step.1 ∉ d.landingsOf places ∧
    (d.entry? step.1 = none → step.1 ∉ d.waysOf places)

instance (d : Disk) (places : List Location) (l : Location) : Decidable (d.Clear places l) :=
  inferInstanceAs (Decidable (∀ step ∈ d.walk l, step.1 ∉ d.landingsOf places ∧
    (d.entry? step.1 = none → step.1 ∈ d.waysOf places → LeadDown step.2)))

instance (d : Disk) (places : List Location) (l : Location) : Decidable (d.Untouched places l) :=
  inferInstanceAs (Decidable (∀ step ∈ d.walk l, step.1 ∉ d.landingsOf places ∧
    (d.entry? step.1 = none → step.1 ∉ d.waysOf places)))

section Places

variable {α : Type} {d : Disk} {l : Location} {key : Key} {places : α → List Location} {items : List α}

theorem mem_landingsOf_flatMap : key ∈ d.landingsOf (items.flatMap places) ↔
    ∃ item ∈ items, key ∈ d.landingsOf (places item) := by
  rw [landingsOf, List.flatMap_assoc, List.mem_flatMap]
  rfl

theorem mem_waysOf_flatMap : key ∈ d.waysOf (items.flatMap places) ↔
    ∃ item ∈ items, key ∈ d.waysOf (places item) := by
  rw [waysOf, List.flatMap_assoc, List.mem_flatMap]
  rfl

/-- A walk that is clear of each is clear of all. -/
theorem clear_flatMap (h : ∀ item ∈ items, d.Clear (places item) l) :
    d.Clear (items.flatMap places) l := by
  refine fun step hstep => ⟨fun hland => ?_, fun hnone hway => ?_⟩
  · obtain ⟨item, hitem, hland⟩ := mem_landingsOf_flatMap.mp hland
    exact (h item hitem step hstep).1 hland
  · obtain ⟨item, hitem, hway⟩ := mem_waysOf_flatMap.mp hway
    exact (h item hitem step hstep).2 hnone hway

theorem untouched_flatMap (h : ∀ item ∈ items, d.Untouched (places item) l) :
    d.Untouched (items.flatMap places) l := by
  refine fun step hstep => ⟨fun hland => ?_, fun hnone hway => ?_⟩
  · obtain ⟨item, hitem, hland⟩ := mem_landingsOf_flatMap.mp hland
    exact (h item hitem step hstep).1 hland
  · obtain ⟨item, hitem, hway⟩ := mem_waysOf_flatMap.mp hway
    exact (h item hitem step hstep).2 hnone hway

end Places

/-! ### One writer -/

section Touched

variable {places : List Location} {d e : Disk} {l : Location} {here key : Key} {names : List String}

theorem landings_subset (hl : l ∈ places) : d.landings l ⊆ d.landingsOf places :=
  fun _ hkey => List.mem_flatMap.mpr ⟨l, hl, hkey⟩

theorem ways_subset (hl : l ∈ places) : d.ways l ⊆ d.waysOf places :=
  fun _ hkey => List.mem_flatMap.mpr ⟨l, hl, hkey⟩

theorem Touched.refl (h : d.Standing) (places : List Location) : Touched places d d :=
  ⟨rfl, h, fun _ h => h, fun _ _ => .inl rfl⟩

theorem Touched.of_none (h : Touched places d e) (hkey : e.entry? key = none) :
    d.entry? key = none :=
  Classical.not_not.mp fun hne => h.kept key hne hkey

theorem Touched.put (h : Touched places d e) (habove : e.entry? key.dropLast ≠ none) {entry : Entry}
    (hkey : key ∈ d.landingsOf places ∨
      e.entry? key = none ∧ entry = .directory ∧ key ∈ d.waysOf places) :
    Touched places d (e.put key entry) where
  home := h.home
  standing := h.standing.put habove entry
  kept other hother := by
    rw [entry?_put]
    split
    · simp
    · split
      · simp
      · exact h.kept other hother
  entry other hother := by
    by_cases heq : other = key
    · subst heq
      obtain ⟨hnone, rfl, hway⟩ := hkey.resolve_left hother
      have hroot : other ≠ [] := by
        rintro rfl
        exact absurd hnone (by simp)
      exact .inr ⟨h.of_none hnone, entry?_put_self hroot e _, hway⟩
    · rw [entry?_put_of_ne heq]
      exact h.entry other hother

/-- What a walk leads to is in something. -/
theorem Standing.follow (h : d.Standing) (hhere : d.entry? here ≠ none)
    (hfollow : d.follow here names = .ok key) : d.entry? key.dropLast ≠ none := by
  induction names generalizing here with
  | nil =>
      obtain rfl : here = key := by simpa [Disk.follow] using hfollow
      exact h.dropLast hhere
  | cons name names ih =>
      rw [Disk.follow] at hfollow
      split at hfollow
      · contradiction
      · contradiction
      · split at hfollow
        · exact ih (h.dropLast hhere) hfollow
        · split at hfollow
          · contradiction
          · cases names with
            | nil =>
                obtain rfl : here ++ [name] = key := by simpa [Disk.follow] using hfollow
                rwa [List.dropLast_concat]
            | cons next names =>
                refine ih ?_ hfollow
                intro hnone
                rw [Disk.follow, hnone] at hfollow
                contradiction

theorem Standing.locate (h : d.Standing) (hlocate : d.locate l = .ok key) :
    d.entry? key.dropLast ≠ none := by
  rw [Disk.locate] at hlocate
  split at hlocate
  · contradiction
  · exact h.follow (h.start l) hlocate

/-- A target is a landing, and is in something. -/
theorem Touched.target (h : Touched places d e) {mode : WriteMode}
    (htarget : e.target mode l = .ok key) :
    key ∈ d.landings l ∧ e.entry? key.dropLast ≠ none := by
  obtain ⟨found, hlocate, hcases⟩ := target_eq_ok htarget
  have hfound := locate_eq_ok hlocate
  rw [absoluteKey_of_home h.home] at hfound
  rcases hcases with ⟨rfl, -⟩ | ⟨rfl, hdirectory, -⟩
  · exact ⟨by simp [landings, hfound], h.standing.locate hlocate⟩
  · refine ⟨by simp [landings, hfound], ?_⟩
    rw [List.dropLast_concat, hdirectory]
    simp

/-- A location whose walk is clear of the writes reads as before. -/
theorem Touched.sameText (h : Touched places d e) (hd : d.Standing) (hl : d.Clear places l) :
    SameText d e l := by
  refine sameText_of_meets hd h.home fun step hstep => ?_
  obtain ⟨hland, hdown⟩ := hl step hstep
  rcases h.entry step.1 hland with hsame | ⟨hnone, hmade, hway⟩
  · exact .inl hsame
  · exact .inr ⟨hnone, hmade, hdown hnone hway⟩

end Touched

/-! ### Two writers -/

/-- `y` is what two writers made of `d` that write to `ours` and to `theirs`, where `x` and `g` are what
each would have made of it alone. -/
structure Beside (d : Disk) (ours theirs : List Location) (x g y : Disk) : Prop where
  left : Touched ours d x
  right : Touched theirs d g
  home : y.home = d.home
  onLeft : ∀ key ∈ d.landingsOf ours, y.entry? key = x.entry? key
  onRight : ∀ key ∈ d.landingsOf theirs, y.entry? key = g.entry? key
  elsewhere : ∀ key, key ∉ d.landingsOf ours → key ∉ d.landingsOf theirs →
    ∀ entry, y.entry? key = some entry ↔ x.entry? key = some entry ∨ g.entry? key = some entry

/-- A place of the left writer that the right one leaves alone. -/
structure Ours (d : Disk) (ours theirs : List Location) (l : Location) : Prop where
  mem : l ∈ ours
  apart : ∀ key ∈ d.landings l, key ∉ d.landingsOf theirs
  clear : d.Clear theirs l

section Beside

variable {ours theirs : List Location} {d x g y : Disk} {l : Location} {here key : Key}
  {names : List String}

theorem Beside.refl (h : d.Standing) (ours theirs : List Location) : Beside d ours theirs d d d :=
  ⟨.refl h ours, .refl h theirs, rfl, fun _ _ => rfl, fun _ _ => rfl, by simp⟩

theorem Beside.symm (h : Beside d ours theirs x g y) : Beside d theirs ours g x y :=
  ⟨h.right, h.left, h.home, h.onRight, h.onLeft, fun key hright hleft entry =>
    (h.elsewhere key hleft hright entry).trans or_comm⟩

/-- The disk is what the left writer would have made of it, but for the right one's files and
directories. -/
theorem Beside.entry (h : Beside d ours theirs x g y) (hkey : key ∉ d.landingsOf theirs) :
    y.entry? key = x.entry? key ∨ x.entry? key = none ∧ y.entry? key = some .directory ∧
      g.entry? key = some .directory ∧ key ∈ d.waysOf theirs := by
  by_cases hleft : key ∈ d.landingsOf ours
  · exact .inl (h.onLeft key hleft)
  · have hboth := h.elsewhere key hleft hkey
    cases hx : x.entry? key with
    | some entry => exact .inl ((hboth entry).mpr (.inl hx))
    | none =>
        have hy : y.entry? key = g.entry? key := by
          refine Option.ext fun entry => ?_
          rw [hboth entry, hx]
          simp
        rcases h.right.entry key hkey with hsame | ⟨-, hmade, hway⟩
        · exact .inl (by rw [hy, hsame, h.left.of_none hx])
        · exact .inr ⟨rfl, hy.trans hmade, hmade, hway⟩

theorem Beside.entry_of_ne_none (h : Beside d ours theirs x g y) (hkey : key ∉ d.landingsOf theirs)
    (hx : x.entry? key ≠ none) : y.entry? key = x.entry? key :=
  (h.entry hkey).resolve_right fun hmade => hx hmade.1

theorem Beside.sameText (h : Beside d ours theirs x g y) (hl : d.Clear theirs l) : SameText x y l := by
  refine sameText_of_meets h.left.standing (h.home.trans h.left.home.symm) fun step hstep => ?_
  rw [walk, start_of_home h.left.home] at hstep
  obtain ⟨hland, hdown⟩ := hl step hstep
  rcases h.entry hland with hsame | ⟨hnone, hmade, -, hway⟩
  · exact .inl hsame
  · exact .inr ⟨hnone, hmade, hdown (h.left.of_none hnone) hway⟩

theorem Beside.entryAt (h : Beside d ours theirs x g y) (hl : d.Untouched theirs l) :
    y.entryAt l = x.entryAt l := by
  refine entryAt_congr (h.home.trans h.left.home.symm) fun step hstep => ?_
  rw [walk, start_of_home h.left.home] at hstep
  obtain ⟨hland, hunmade⟩ := hl step hstep
  exact (h.entry hland).resolve_right fun ⟨hnone, _, _, hway⟩ =>
    hunmade (h.left.of_none hnone) hway

/-- The disks hold the same. -/
structure SameContent (d e : Disk) : Prop where
  home : e.home = d.home
  entry : ∀ key, e.entry? key = d.entry? key

theorem SameContent.refl (d : Disk) : SameContent d d := ⟨rfl, fun _ => rfl⟩

theorem SameContent.symm {e : Disk} (h : SameContent d e) : SameContent e d :=
  ⟨h.home.symm, fun key => (h.entry key).symm⟩

theorem SameContent.trans {e f : Disk} (h : SameContent d e) (h' : SameContent e f) : SameContent d f :=
  ⟨h'.home.trans h.home, fun key => (h'.entry key).trans (h.entry key)⟩

/-- There is one way for both writers to have worked on a disk. -/
theorem Beside.sameContent {x' g' y' : Disk} (h : Beside d ours theirs x g y)
    (h' : Beside d ours theirs x' g' y') (hx : SameContent x x') (hg : SameContent g g') :
    SameContent y y' where
  home := h'.home.trans h.home.symm
  entry key := by
    by_cases hours : key ∈ d.landingsOf ours
    · rw [h.onLeft key hours, h'.onLeft key hours, hx.entry]
    · by_cases htheirs : key ∈ d.landingsOf theirs
      · rw [h.onRight key htheirs, h'.onRight key htheirs, hg.entry]
      · refine Option.ext fun entry => ?_
        rw [h.elsewhere key hours htheirs, h'.elsewhere key hours htheirs, hx.entry, hg.entry]

/-- Beside a writer who has made nothing of the disk one is alone. -/
theorem Beside.alone (h : Beside d ours [] x d y) : SameContent x y where
  home := h.home.trans h.left.home.symm
  entry key := by
    rcases h.entry (List.not_mem_nil (a := key)) with hsame | ⟨-, -, -, hway⟩
    · exact hsame
    · exact absurd hway List.not_mem_nil

/-- Both disks take the same entry in. -/
theorem Beside.put (h : Beside d ours theirs x g y) {entry : Entry}
    (hput : Touched ours d (x.put key entry)) (hkey : key ∉ d.landingsOf theirs)
    (hgiven : key ∈ d.landingsOf ours ∨ g.entry? key = none) :
    Beside d ours theirs (x.put key entry) g (y.put key entry) where
  left := hput
  right := h.right
  home := h.home
  onLeft other hother := by
    rw [entry?_put, entry?_put, h.onLeft other hother]
  onRight other hother := by
    have hne : other ≠ key := by
      rintro rfl
      exact hkey hother
    rw [entry?_put_of_ne hne]
    exact h.onRight other hother
  elsewhere other hleft hright found := by
    by_cases heq : other = key
    · subst heq
      rw [entry?_put, entry?_put, hgiven.resolve_left hleft]
      simp
    · rw [entry?_put_of_ne heq, entry?_put_of_ne heq]
      exact h.elsewhere other hleft hright found

/-- The left writer would make a directory that the right one has made. -/
theorem Beside.put_left (h : Beside d ours theirs x g y)
    (hput : Touched ours d (x.put key .directory)) (hx : x.entry? key = none)
    (hy : y.entry? key = some .directory) (hg : g.entry? key = some .directory) :
    Beside d ours theirs (x.put key .directory) g y where
  left := hput
  right := h.right
  home := h.home
  onLeft other hother := by
    have hne : other ≠ key := by
      rintro rfl
      have hsame := h.onLeft other hother
      rw [hx, hy] at hsame
      contradiction
    rw [entry?_put_of_ne hne]
    exact h.onLeft other hother
  onRight := h.onRight
  elsewhere other hleft hright found := by
    by_cases heq : other = key
    · subst heq
      rw [hy, hg, entry?_put]
      simp
    · rw [entry?_put_of_ne heq]
      exact h.elsewhere other hleft hright found

theorem Beside.makeWay (h : Beside d ours theirs x g y) (hhere : x.entry? here ≠ none)
    (hways : ∀ key ∈ wayKeys here names, key ∈ d.waysOf ours ∧ key ∉ d.landingsOf theirs) :
    (y.makeWay here names).1 = (x.makeWay here names).1 ∧
      Beside d ours theirs (x.makeWay here names).2 g (y.makeWay here names).2 := by
  induction names generalizing x y here with
  | nil => exact ⟨rfl, h⟩
  | cons name names ih =>
      rw [Disk.makeWay, Disk.makeWay]
      rw [wayKeys] at hways
      split
      · rename_i hname
        rw [if_pos hname] at hways
        exact ih h (h.left.standing.dropLast hhere) hways
      · rename_i hname
        rw [if_neg hname] at hways
        obtain ⟨⟨hway, hright⟩, hrest⟩ := List.forall_mem_cons.mp hways
        split
        · exact ⟨rfl, h⟩
        · dsimp only
          cases hx : x.entry? (here ++ [name]) with
          | some entry =>
              rw [h.entry_of_ne_none hright (by simp [hx]), hx]
              cases entry with
              | directory => exact ih h (by simp [hx]) hrest
              | file bytes => exact ⟨rfl, h⟩
          | none =>
              have habove : x.entry? (here ++ [name]).dropLast ≠ none := by
                rwa [List.dropLast_concat]
              have hput := h.left.put habove (.inr ⟨hx, rfl, hway⟩)
              have hthere : entry? (x.put (here ++ [name]) .directory) (here ++ [name]) ≠ none := by
                simp [entry?_put_self]
              rcases h.entry hright with hsame | ⟨-, hy, hg, -⟩
              · rw [hsame, hx]
                refine ih (h.put hput hright ?_) hthere hrest
                by_cases hleft : here ++ [name] ∈ d.landingsOf ours
                · exact .inl hleft
                · refine .inr (Option.eq_none_iff_forall_ne_some.mpr fun entry hg => ?_)
                  have hy := (h.elsewhere _ hleft hright entry).mpr (.inr hg)
                  rw [hsame, hx] at hy
                  contradiction
              · rw [hy]
                exact ih (h.put_left hput hx hy hg) hthere hrest

/-! ### Writes beside each other -/

theorem exists_mem_route_of_mem_wayKeys (h : key ∈ wayKeys here names) :
    ∃ rest, (key, rest) ∈ route here names := by
  induction names generalizing here with
  | nil => contradiction
  | cons name names ih =>
      rw [wayKeys] at h
      by_cases hname : name = ".."
      · rw [if_pos hname] at h
        obtain ⟨rest, hrest⟩ := ih h
        refine ⟨rest, mem_route_cons ?_⟩
        rwa [onward, if_pos hname]
      · rw [if_neg hname] at h
        rcases List.mem_cons.mp h with rfl | h
        · refine ⟨names, mem_route_cons ?_⟩
          rw [onward, if_neg hname]
          exact mem_route_self _ _
        · obtain ⟨rest, hrest⟩ := ih h
          refine ⟨rest, mem_route_cons ?_⟩
          rwa [onward, if_neg hname]

theorem mem_route_append {rest more : List String} (h : (key, rest) ∈ route here names) :
    (key, rest ++ more) ∈ route here (names ++ more) := by
  induction names generalizing here with
  | nil =>
      obtain ⟨rfl, rfl⟩ := Prod.mk.inj (List.mem_singleton.mp h)
      exact mem_route_self _ _
  | cons name names ih =>
      rcases List.mem_cons.mp h with heq | h
      · obtain ⟨rfl, rfl⟩ := Prod.mk.inj heq
        exact mem_route_self _ _
      · exact mem_route_cons (ih h)

/-- All that a walk comes by before its end, it comes by without its last name. -/
theorem exists_mem_route_dropLast {step : Key × List String} (h : step ∈ route here names)
    (hstep : step.2 ≠ []) : ∃ rest, (step.1, rest) ∈ route here names.dropLast := by
  induction names generalizing here with
  | nil =>
      obtain rfl := List.mem_singleton.mp h
      contradiction
  | cons name names ih =>
      rcases List.mem_cons.mp h with rfl | h
      · exact ⟨_, mem_route_self _ _⟩
      · cases names with
        | nil =>
            obtain rfl := List.mem_singleton.mp h
            contradiction
        | cons next names =>
            obtain ⟨rest, hrest⟩ := ih h
            exact ⟨rest, mem_route_cons hrest⟩

theorem exists_mem_walk_of_parent {rest : List String} (h : (key, rest) ∈ d.walk l.parent) :
    ∃ more, (key, more) ∈ d.walk l := by
  have hstart : d.start l.parent = d.start l := rfl
  have hparts : l.parent.parts = l.parts.dropLast := rfl
  rw [walk, hstart, hparts] at h
  rcases List.eq_nil_or_concat l.parts with hnil | ⟨front, last, hlast⟩
  · rw [hnil] at h
    exact ⟨rest, by rwa [walk, hnil]⟩
  · rw [List.concat_eq_append] at hlast
    rw [hlast, List.dropLast_concat] at h
    exact ⟨rest ++ [last], by rw [walk, hlast]; exact mem_route_append h⟩

theorem Clear.parent (h : d.Clear theirs l) {rest : List String}
    (hkey : (key, rest) ∈ d.walk l.parent) : key ∉ d.landingsOf theirs := by
  obtain ⟨more, hmore⟩ := exists_mem_walk_of_parent hkey
  exact (h _ hmore).1

theorem Beside.makeDirectory (h : Beside d ours theirs x g y) (hl : Ours d ours theirs l) :
    (y.makeDirectory l.parent).1 = (x.makeDirectory l.parent).1 ∧
      Beside d ours theirs (x.makeDirectory l.parent).2 g (y.makeDirectory l.parent).2 := by
  have hways : ∀ key ∈ wayKeys (x.start l.parent) l.parent.parts,
      key ∈ d.waysOf ours ∧ key ∉ d.landingsOf theirs := by
    intro key hkey
    rw [start_of_home h.left.home] at hkey
    obtain ⟨rest, hrest⟩ := exists_mem_route_of_mem_wayKeys hkey
    exact ⟨ways_subset hl.mem hkey, hl.clear.parent hrest⟩
  obtain ⟨hmade, hbeside⟩ := h.makeWay (h.left.standing.start l.parent) hways
  rw [Disk.makeDirectory, Disk.makeDirectory,
    start_of_home (h.home.trans h.left.home.symm : y.home = x.home)]
  split
  · exact ⟨rfl, h⟩
  · exact ⟨congrArg (Except.mapError fun cause => (⟨cause, l.parent⟩ : Disk.Error)) hmade, hbeside⟩

/-- A way that is there is there all along. -/
theorem Way.route_ne_none (h : d.Way here names) (hd : d.Standing) (hhere : d.entry? here ≠ none) :
    ∀ step ∈ route here names, d.entry? step.1 ≠ none := by
  induction h with
  | nil =>
      intro step hstep
      obtain rfl := List.mem_singleton.mp hstep
      exact hhere
  | up _ ih =>
      refine List.forall_mem_cons.mpr ⟨hhere, ?_⟩
      rw [onward, if_pos rfl]
      exact ih (hd.dropLast hhere)
  | down hname _ hentry _ ih =>
      refine List.forall_mem_cons.mpr ⟨hhere, ?_⟩
      rw [onward, if_neg hname]
      exact ih (by simp [hentry])

/-- Where the way to a place is there, the bytes go to the same key on both disks. -/
theorem Beside.target (h : Beside d ours theirs x g y) (hl : Ours d ours theirs l)
    (hway : x.Way (x.start l.parent) l.parent.parts) (mode : WriteMode) :
    y.target mode l = x.target mode l := by
  have hstart : ∀ l : Location, y.start l = x.start l :=
    start_of_home (h.home.trans h.left.home.symm)
  have hsame : ∀ {key : Key} {rest : List String}, (key, rest) ∈ x.walk l.parent →
      y.entry? key = x.entry? key := by
    intro key rest hstep
    have hthere := hway.route_ne_none h.left.standing (h.left.standing.start l.parent) _ hstep
    rw [walk, start_of_home h.left.home] at hstep
    exact h.entry_of_ne_none (hl.clear.parent hstep) hthere
  have hparent : y.locate l.parent = x.locate l.parent := by
    rw [locate, locate, hstart]
    split
    · rfl
    · exact follow_congr fun step hstep _ => hsame hstep
  have hlocate : y.locate l = x.locate l := by
    rw [locate, locate, hstart]
    split
    · rfl
    · refine follow_congr fun step hstep hleft => ?_
      obtain ⟨rest, hrest⟩ := exists_mem_route_dropLast hstep hleft
      exact hsame hrest
  have hentry : ∀ key, x.locate l = .ok key → y.entry? key = x.entry? key := by
    intro key hkey
    have hfound := locate_eq_ok hkey
    rw [absoluteKey_of_home h.left.home] at hfound
    exact h.onLeft key (landings_subset hl.mem (hfound ▸ absoluteKey_mem_landings d l))
  cases mode with
  | inPlace =>
      simp only [Disk.target, hlocate]
      cases hkey : x.locate l with
      | error cause => rfl
      | ok key => simp only [bind, Except.bind, hentry key hkey]
  | replace =>
      simp only [Disk.target, hparent, hlocate]
      cases hkey : x.locate l with
      | error cause => rfl
      | ok key => simp only [bind, Except.bind, hentry key hkey]

theorem Beside.write (h : Beside d ours theirs x g y) (hl : Ours d ours theirs l)
    (mode : WriteMode) (bytes : ByteArray) :
    (y.write mode l bytes).1 = (x.write mode l bytes).1 ∧
      Beside d ours theirs (x.write mode l bytes).2 g (y.write mode l bytes).2 := by
  obtain ⟨hmade, hbeside⟩ := h.makeDirectory hl
  have hway : (x.makeDirectory l.parent).1 = .ok () →
      (x.makeDirectory l.parent).2.Way (x.start l.parent) l.parent.parts :=
    fun hok => (makeDirectory_fst_eq_ok hok).2
  have hstart := start_of_home (extends_makeDirectory x l.parent).home l.parent
  rw [Disk.write, Disk.write]
  generalize x.makeDirectory l.parent = madeX at hmade hbeside hway hstart
  generalize y.makeDirectory l.parent = madeY at hmade hbeside
  obtain ⟨result, x'⟩ := madeX
  obtain ⟨result', y'⟩ := madeY
  dsimp only at hmade hbeside hway hstart ⊢
  subst hmade
  cases result' with
  | error e => exact ⟨rfl, hbeside⟩
  | ok _ =>
      have htarget := hbeside.target hl (hstart ▸ hway rfl) mode
      dsimp only
      rw [htarget]
      cases hkey : x'.target mode l with
      | error cause => exact ⟨rfl, hbeside⟩
      | ok key =>
          obtain ⟨hland, habove⟩ := hbeside.left.target hkey
          have hours := landings_subset hl.mem hland
          exact ⟨rfl, hbeside.put (hbeside.left.put habove (.inl hours)) (hl.apart key hland)
            (.inl hours)⟩

theorem Beside.save (h : Beside d ours theirs x g y) (hl : Ours d ours theirs l)
    (mode : WriteMode) (content : String) :
    (y.save mode l content).1 = (x.save mode l content).1 ∧
      Beside d ours theirs (x.save mode l content).2 g (y.save mode l content).2 := by
  obtain ⟨hwritten, hbeside⟩ := h.write hl mode content.toUTF8
  rw [Disk.save, Disk.save, (h.sameText hl.clear).textIfFile_eq]
  cases x.textIfFile l with
  | error failure => exact ⟨rfl, h⟩
  | ok existing =>
      dsimp only
      split
      · rw [writeText, writeText]
        exact ⟨by dsimp only; rw [hwritten], hbeside⟩
      · exact ⟨rfl, h⟩

theorem Beside.saveTwin (h : Beside d ours theirs x g y) (hl : Ours d ours theirs l)
    (mode : WriteMode) (content : Twin String) :
    (y.saveTwin mode l content).1 = (x.saveTwin mode l content).1 ∧
      Beside d ours theirs (x.saveTwin mode l content).2 g (y.saveTwin mode l content).2 := by
  rw [Disk.saveTwin, Disk.saveTwin]
  cases content.surrogates? with
  | none => exact h.save hl mode content.first
  | some run =>
      obtain ⟨hmade, hbeside⟩ := h.makeDirectory hl
      dsimp only
      rw [refuse, refuse, (h.sameText hl.clear).textIfFile_eq]
      cases x.textIfFile l with
      | error failure => exact ⟨rfl, h⟩
      | ok existing => exact ⟨by dsimp only; rw [hmade], hbeside⟩

end Beside

end Disk

/-! ### Aggregate files beside each other -/

namespace Aggregate

open Disk (Location WriteMode Beside Ours)

variable {ours theirs : List Location} {d x g y : Disk} {l : Location}

theorem beside_patch (h : Beside d ours theirs x g y) (hl : Ours d ours theirs l)
    (mode : WriteMode) (f : Twin Fragment) :
    (patch y mode l f).1 = (patch x mode l f).1 ∧
      (patch y mode l f).2.1 = (patch x mode l f).2.1 ∧
      Beside d ours theirs (patch x mode l f).2.2 g (patch y mode l f).2.2 := by
  rw [patch, patch, (h.sameText hl.clear).textIfFile_eq]
  cases x.textIfFile l with
  | error failure => exact ⟨rfl, rfl, h⟩
  | ok existing =>
      obtain ⟨hsaved, hbeside⟩ := h.saveTwin hl mode (Prod.fst <$> (mergeText existing <$> f))
      exact ⟨rfl, hsaved, hbeside⟩

theorem beside_prune (h : Beside d ours theirs x g y) (hl : Ours d ours theirs l)
    (mode : WriteMode) (keep : List String) :
    (prune y mode l keep).1 = (prune x mode l keep).1 ∧
      Beside d ours theirs (prune x mode l keep).2 g (prune y mode l keep).2 := by
  rw [prune, prune, (h.sameText hl.clear).textIfFile_eq]
  cases x.textIfFile l with
  | error failure => exact ⟨rfl, h⟩
  | ok existing =>
      dsimp only
      split
      · exact ⟨rfl, h⟩
      · rename_i text _
        obtain ⟨hsaved, hbeside⟩ := h.save hl mode text
        exact ⟨congrArg (Except.map some) hsaved, hbeside⟩

end Aggregate

end DartScaffold

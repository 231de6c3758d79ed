import DartScaffold.Json.Reader
import DartScaffold.Proofs.Shape.Nodes

/-!
No value that is read has a key twice: a key that comes again in an object takes the place of the
earlier one.
-/

namespace DartScaffold

theorem Entries.mem_keys_put {entries : Entries} {key other : String} {value : Json}
    (h : other ∈ (entries.put key value).map Prod.fst) :
    other = key ∨ other ∈ entries.map Prod.fst := by
  induction entries with
  | nil => simpa [put] using h
  | cons entry rest ih =>
      obtain ⟨own, held⟩ := entry
      rw [put] at h
      split at h
      · exact .inr h
      · rcases List.mem_cons.mp h with rfl | h
        · exact .inr List.mem_cons_self
        · exact (ih h).imp_right (List.mem_cons_of_mem _)

namespace Json

/-- No key comes twice in an object with these entries, nor in one inside it. -/
def EntriesDistinct (entries : Entries) : Prop :=
  (obj entries).KeysDistinct

theorem EntriesDistinct.nil : EntriesDistinct [] :=
  ⟨List.nodup_nil, trivial⟩

theorem EntriesDistinct.put {entries : Entries} (h : EntriesDistinct entries) (key : String)
    {value : Json} (hvalue : value.KeysDistinct) : EntriesDistinct (entries.put key value) := by
  induction entries with
  | nil => exact ⟨List.nodup_singleton key, hvalue, trivial⟩
  | cons entry rest ih =>
      obtain ⟨own, held⟩ := entry
      rw [EntriesDistinct, KeysDistinct, List.map_cons, List.nodup_cons, EntriesKeysDistinct] at h
      obtain ⟨⟨hown, hkeys⟩, hheld, hrest⟩ := h
      rw [Entries.put]
      split
      · exact ⟨List.nodup_cons.mpr ⟨hown, hkeys⟩, hvalue, hrest⟩
      · rename_i hne
        obtain ⟨hnodup, hall⟩ := ih ⟨hkeys, hrest⟩
        refine ⟨List.nodup_cons.mpr ⟨fun hmem => ?_, hnodup⟩, hheld, hall⟩
        exact (Entries.mem_keys_put hmem).elim hne hown

/-! ### Parts of a text -/

/-- Whatever is read satisfies `P`. -/
def Reads {α : Type} (P : α → Prop) (result : Except Fault (α × List Char)) : Prop :=
  ∀ a rest, result = .ok (a, rest) → P a

variable {α β : Type} {P : α → Prop} {Q : β → Prop}

theorem reads_ok {a : α} (h : P a) (rest : List Char) : Reads P (.ok (a, rest)) := by
  rintro _ _ ⟨⟩
  exact h

theorem reads_error (fault : Fault) : Reads P (.error fault) := by
  rintro _ _ ⟨⟩

theorem Reads.bind {result : Except Fault (α × List Char)}
    {f : α × List Char → Except Fault (β × List Char)} (h : Reads P result)
    (hf : ∀ a rest, P a → Reads Q (f (a, rest))) : Reads Q (result >>= f) := by
  cases result with
  | error fault => exact reads_error fault
  | ok found => exact hf found.1 found.2 (h _ _ rfl)

theorem Reads.map {result : Except Fault (α × List Char)} (h : Reads P result) {f : α → β}
    (hf : ∀ a, P a → Q (f a)) :
    Reads Q (result.map fun found => (f found.1, found.2)) := by
  cases result with
  | error fault => exact reads_error fault
  | ok found => exact reads_ok (hf found.1 (h _ _ rfl)) found.2

theorem reads_any (result : Except Fault (α × List Char)) : Reads (fun _ => True) result :=
  fun _ _ _ => trivial

theorem reads_number (s : List Char) : Reads KeysDistinct (readNumber s) := by
  have hmagnitude : ∀ negative s, Reads KeysDistinct (readMagnitude negative s) := by
    intro negative s
    rw [readMagnitude]
    refine (reads_any _).bind fun whole rest _ => ?_
    dsimp only
    split
    · split
      · split
        · exact reads_error _
        · exact reads_ok trivial _
      · exact reads_ok trivial _
    · exact reads_ok trivial _
  rw [readNumber.eq_def]
  split
  · exact hmagnitude true _
  · exact hmagnitude false _

theorem keysDistinct_of_constant {s rest : List Char} {value : Json}
    (h : readConstant s = some (value, rest)) : value.KeysDistinct := by
  obtain ⟨⟨word, constant⟩, hmem, hfound⟩ := List.exists_of_findSome?_eq_some h
  obtain ⟨tail, -, heq⟩ := Option.map_eq_some_iff.mp hfound
  obtain rfl : constant = value := congrArg Prod.fst heq
  have hall : ∀ entry ∈ constants, entry.2.KeysDistinct := by
    simp [constants, KeysDistinct]
  exact hall _ hmem

/-! ### Whole texts -/

section

variable (standIn : Nat → Char)

/-- What readers with this much fuel read has distinct keys, if the entries read before have. -/
structure ReadsDistinct (fuel : Nat) : Prop where
  value : ∀ depth s, Reads KeysDistinct (readValue standIn fuel depth s)
  items : ∀ depth s, Reads ItemsKeysDistinct (readItems standIn fuel depth s)
  entries : ∀ depth s entries, EntriesDistinct entries →
    Reads EntriesDistinct (readEntries standIn fuel depth s entries)

variable {standIn} {fuel : Nat}

theorem ReadsDistinct.readValue (h : ReadsDistinct standIn fuel) (depth : Nat) (s : List Char) :
    Reads KeysDistinct (Json.readValue standIn (fuel + 1) depth s) := by
  rw [Json.readValue.eq_def]
  dsimp only
  split
  · exact (reads_any _).map fun _ _ => trivial
  · split
    · exact reads_error _
    · split
      · exact reads_ok trivial _
      · exact (h.items _ _).map fun _ hitems => hitems
  · split
    · exact reads_error _
    · split
      · exact reads_ok (P := KeysDistinct) EntriesDistinct.nil _
      · exact (h.entries _ _ _ EntriesDistinct.nil).map fun _ hentries => hentries
  · split
    · rename_i found hconstant
      exact reads_ok (keysDistinct_of_constant hconstant) _
    · exact reads_number s

theorem ReadsDistinct.readItems (h : ReadsDistinct standIn fuel) (depth : Nat) (s : List Char) :
    Reads ItemsKeysDistinct (Json.readItems standIn (fuel + 1) depth s) := by
  rw [Json.readItems]
  refine (h.value _ _).bind fun item rest hitem => ?_
  dsimp only
  split
  · exact reads_ok ⟨hitem, trivial⟩ _
  · exact (h.items _ _).bind fun items rest hitems => reads_ok ⟨hitem, hitems⟩ _
  · exact reads_error _

theorem ReadsDistinct.readEntries (h : ReadsDistinct standIn fuel) (depth : Nat) (s : List Char)
    (entries : Entries) (hentries : EntriesDistinct entries) :
    Reads EntriesDistinct (Json.readEntries standIn (fuel + 1) depth s entries) := by
  rw [Json.readEntries.eq_def]
  dsimp only
  split
  · refine (reads_any _).bind fun key rest _ => ?_
    dsimp only
    split
    · refine (h.value _ _).bind fun value rest hvalue => ?_
      have hput := hentries.put key hvalue
      dsimp only
      split
      · exact reads_ok hput _
      · exact h.entries _ _ _ hput
      · exact reads_error _
    · exact reads_error _
  · exact reads_error _

theorem readsDistinct (standIn : Nat → Char) (fuel : Nat) : ReadsDistinct standIn fuel := by
  induction fuel with
  | zero => exact ⟨fun _ _ => reads_error _, fun _ _ => reads_error _, fun _ _ _ _ => reads_error _⟩
  | succ fuel ih => exact ⟨ih.readValue, ih.readItems, ih.readEntries⟩

end

/-- A value that is read from a text has no key twice in an object. -/
theorem keysDistinct_readWith {standIn : Nat → Char} {text : String} {value : Json}
    (h : readWith standIn text = .ok value) : value.KeysDistinct := by
  rw [readWith] at h
  cases hvalue : readValue standIn (2 * (skipSpace text.toList).length + 1) 0
      (skipSpace text.toList) with
  | error fault =>
      rw [hvalue] at h
      contradiction
  | ok found =>
      rw [hvalue] at h
      have hfound := (readsDistinct standIn _).value 0 _ found.1 found.2 hvalue
      change (if (skipSpace found.2).isEmpty then .ok found.1 else .error Fault.malformed) =
        Except.ok value at h
      split at h
      · exact Except.ok.inj h ▸ hfound
      · contradiction

theorem keysDistinct_of_read? {text : String} {value : Json} (h : read? text = some value) :
    value.KeysDistinct := by
  rw [read?] at h
  cases hread : read text with
  | error fault =>
      rw [hread] at h
      contradiction
  | ok found =>
      rw [hread] at h
      exact Option.some.inj h ▸ keysDistinct_readWith hread

end Json

end DartScaffold

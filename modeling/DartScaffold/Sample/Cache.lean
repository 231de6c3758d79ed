import DartScaffold.Disk.TextFile
import DartScaffold.Json.Reader
import DartScaffold.Sample

/-!
Samples as they were read. Each file is read once for a page; a sample that cannot be used stays
so for every API that asks for it.
-/

namespace DartScaffold.Sample

open Disk (Location)

/-- The sample in the file at `place`. -/
def read (disk : Disk) (place : Location) : Except Failure (Twin Json) :=
  let refuse (fault : SampleFault) : Except Failure (Twin Json) :=
    .error (.sample place.toString fault)
  match disk.textIfFile place with
  | .error .notUtf8 => refuse (.unreadable notUtf8Message)
  | .error failure => .error failure
  | .ok none => refuse .fileNotFound
  | .ok (some text) =>
    match Json.readTwin text with
    | .ok value => .ok value
    | .error .malformed => refuse .invalidJson
    | .error (.hugeInteger digits) => .error (.hugeInteger digits)
    | .error (.tooDeep container) => .error (.tooDeep container)

/-- What reading gave, by location. -/
abbrev Cache := List (Location × Except Failure (Twin Json))

namespace Cache

/-- The sample at `place`. Only a failure of the sample is kept. -/
def load (cache : Cache) (disk : Disk) (place : Location) :
    Except Failure (Twin Json) × Cache :=
  match cache.lookup place with
  | some result => (result, cache)
  | none =>
    match read disk place with
    | .ok value => (.ok value, cache ++ [(place, .ok value)])
    | .error failure =>
      let kept := if failure matches .sample _ _ then [(place, .error failure)] else []
      (.error failure, cache ++ kept)

/-- The shape object of a sample; where there is none it has no fields. -/
def shape (cache : Cache) (disk : Disk) :
    Option Location → Except Failure (Twin (Entries × Bool)) × Cache
  | none => (.ok (.same ([], false)), cache)
  | some place =>
    let (value, cache) := cache.load disk place
    (value.bind (Twin.traverse (shapeObject place.toString)), cache)

end Cache

end DartScaffold.Sample

import DartScaffold.Text.Surrogate

/-!
Twins. A text with lone surrogates is read twice, with stand-ins from two blocks that it does not
use, and all that is made of it is made twice. As the two makings differ in the stand-ins alone, a
text that comes of them holds a lone surrogate exactly where its twins differ, whatever characters
it has from elsewhere. `first_bind` and `second_bind` say that neither making sees the other.
-/

namespace DartScaffold

/-- A value that is made of texts without lone surrogates, or once with either stand-ins. -/
inductive Twin (α : Type) where
  | same (a : α)
  | apart (first second : α)
  deriving DecidableEq, Repr

namespace Twin

variable {α β ε : Type}

def first : Twin α → α
  | same a => a
  | apart a _ => a

def second : Twin α → α
  | same a => a
  | apart _ b => b

def map (f : α → β) : Twin α → Twin β
  | same a => same (f a)
  | apart a b => apart (f a) (f b)

def bind : Twin α → (α → Twin β) → Twin β
  | same a, f => f a
  | apart a b, f => apart (f a).first (f b).second

instance : Monad Twin where
  pure := same
  bind := bind
  map := map

theorem first_bind (t : Twin α) (f : α → Twin β) : (t >>= f).first = (f t.first).first := by
  cases t <;> rfl

theorem second_bind (t : Twin α) (f : α → Twin β) : (t >>= f).second = (f t.second).second := by
  cases t <;> rfl

/-- Makes something of either twin, and fails if that fails. -/
def traverse (f : α → Except ε β) : Twin α → Except ε (Twin β)
  | same a => (f a).map same
  | apart a b => do return apart (← f a) (← f b)

/-- The elements one by one. -/
def elements : Twin (List α) → List (Twin α)
  | same items => items.map same
  | apart items others => List.zipWith apart items others

/-- The first lone surrogates of a text. -/
def surrogates? : Twin String → Option Text.SurrogateRun
  | same _ => none
  | apart a b =>
    let (before, rest) := (a.toList.zip b.toList).span fun (c, d) => c == d
    match rest with
    | [] => none
    | (c, _) :: rest =>
      some ⟨Text.surrogate c, before.length, 1 + (rest.takeWhile fun (c, d) => c != d).length⟩

end Twin

end DartScaffold

-- The three purity levels, from the weakest promise to the strongest.

namespace Purity

/-- What a function promises: nothing, that it changes no state, or that it also reads none. -/
inductive Level
  | none
  | readonly
  | pure
  deriving DecidableEq, Repr, Inhabited

namespace Level

/-- The levels, weakest first. -/
def all : List Level := [.none, .readonly, .pure]

/-- The place of a level among all levels. -/
def rank : Level → Nat
  | .none => 0
  | .readonly => 1
  | .pure => 2

instance : LE Level := ⟨fun a b => a.rank ≤ b.rank⟩

instance : LT Level := ⟨fun a b => a.rank < b.rank⟩

instance (a b : Level) : Decidable (a ≤ b) := inferInstanceAs (Decidable (a.rank ≤ b.rank))

instance (a b : Level) : Decidable (a < b) := inferInstanceAs (Decidable (a.rank < b.rank))

instance : Ord Level := ⟨fun a b => compare a.rank b.rank⟩

theorem le_def {a b : Level} : a ≤ b ↔ a.rank ≤ b.rank := Iff.rfl

theorem lt_def {a b : Level} : a < b ↔ a.rank < b.rank := Iff.rfl

/-- The stronger promise that both levels keep. -/
def meet (a b : Level) : Level := if a ≤ b then a else b

/-- The level of a body that is known to be readonly or pure. Pure wins. -/
def ofSupport (readonly pure : Bool) : Level :=
  if pure then .pure else if readonly then .readonly else .none

/-- The word for a level in module descriptions and reports. -/
def key : Level → String
  | .none => "none"
  | .readonly => "readonly"
  | .pure => "pure"

/-- The word for a level in messages. -/
def title : Level → String
  | .none => "None"
  | .readonly => "Readonly"
  | .pure => "Pure"

end Level

end Purity

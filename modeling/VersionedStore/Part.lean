/-!
# Parts of a world

A store works on a part of a larger world: the files, a table in memory, a queue of prepared
answers. A part is looked at and replaced, and the operations of the part become operations of the
world that leave the rest of it alone.
-/

namespace VersionedStore

/-- A part `σ` of a world `τ`. -/
structure Part (τ σ : Type) where
  get : τ → σ
  set : τ → σ → τ

namespace Part

variable {τ σ ρ α : Type}

/-- An operation of the part as an operation of the world. -/
def lift (part : Part τ σ) (f : σ → α × σ) (w : τ) : α × τ :=
  let (a, s) := f (part.get w)
  (a, part.set w s)

def fst : Part (σ × ρ) σ := ⟨Prod.fst, fun w s => (s, w.2)⟩

def snd : Part (ρ × σ) σ := ⟨Prod.snd, fun w s => (w.1, s)⟩

@[simp] theorem lift_snd (f : σ → α × σ) (w : ρ × σ) :
    snd.lift f w = ((f w.2).1, (w.1, (f w.2).2)) := rfl

end Part

end VersionedStore

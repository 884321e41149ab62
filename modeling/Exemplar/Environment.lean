import Exemplar.Text.Quoted

/-!
# Exemplar.Environment

What type parameters stand for at a place.  An environment is a list of frames, the innermost
first; a frame binds a name, or hides what the outer frames say of it.

* `Environment.resolve` — the innermost frame of a name decides;
* `Environment.text` — the frames as a listing shows them.
-/

namespace Exemplar

/-- Frames of names that are bound or hidden, the innermost first. -/
structure Environment (α : Type) where
  frames : List (String × Option α)
deriving DecidableEq

namespace Environment

variable {α : Type}

/-- No frames. -/
def empty : Environment α := ⟨[]⟩

instance : EmptyCollection (Environment α) := ⟨empty⟩

/-- There are no frames. -/
def isEmpty (env : Environment α) : Bool := env.frames.isEmpty

/-- Adds a frame in which a name stands for something, or is hidden. -/
def push (env : Environment α) (name : String) (value : Option α) : Environment α :=
  ⟨(name, value) :: env.frames⟩

/-- Adds a frame in which a name stands for something. -/
def bind (env : Environment α) (name : String) (value : α) : Environment α :=
  env.push name (some value)

/-- Adds a frame in which a name stands for nothing. -/
def hide (env : Environment α) (name : String) : Environment α := env.push name none

/-- Binds names one after the other. -/
def extend (env : Environment α) (pairs : List (String × α)) : Environment α :=
  pairs.foldl (fun env (name, value) => env.bind name value) env

/-- What a name stands for. -/
def resolve (env : Environment α) (name : String) : Option α :=
  (env.frames.find? (·.1 = name)).bind (·.2)

theorem resolve_push_self (env : Environment α) (name : String) (value : Option α) :
    (env.push name value).resolve name = value := by
  simp [push, resolve]

theorem resolve_push_of_ne (env : Environment α) {name other : String} (value : Option α)
    (h : name ≠ other) : (env.push name value).resolve other = env.resolve other := by
  simp [push, resolve, h]

/-- The text of a frame. -/
def frameText (value : α → String) : String × Option α → String
  | (name, none) => "(" ++ quoted name ++ ", None)"
  | (name, some v) => "(" ++ quoted name ++ ", Some(" ++ value v ++ "))"

/-- The text of an environment, the innermost frame first. -/
def text (value : α → String) (env : Environment α) : String :=
  "[" ++ ", ".intercalate (env.frames.map (frameText value)) ++ "]"

end Environment

end Exemplar

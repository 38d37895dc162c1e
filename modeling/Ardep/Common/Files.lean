import Mathlib.Data.List.Basic
import Mathlib.Logic.Function.Basic
/-!
# Files — contents by path, and one open file

What a file system with a single open file is, as far as its contents go:
a map from paths to contents and a handle, which is a path and a position.
Writing replaces the bytes from the position on and moves it, reading
moves it past what was read.

`At` says where an open file stands. At its end writing appends
(`At.write`), which is all that happens to a file that is only written.
-/

namespace Ardep

variable {Path Byte : Type*}

/-- **The files**: what each path holds, and the open one with the position
in it. -/
structure Files (Path Byte : Type*) where
  contents : Path → Option (List Byte)
  handle : Option (Path × ℕ)

namespace Files

/-- The file at `p` is open at a position. -/
structure At (p : Path) (file : List Byte) (pos : ℕ) (F : Files Path Byte) : Prop where
  contents : F.contents p = some file
  handle : F.handle = some (p, pos)

/-- The contents of the open file. -/
def file? (F : Files Path Byte) : Option (List Byte) :=
  F.handle.bind fun h => F.contents h.1

/-- Close the open file. -/
def close (F : Files Path Byte) : Files Path Byte :=
  { F with handle := none }

section Read

variable {p : Path} {file : List Byte} {pos : ℕ} {F : Files Path Byte}

/-- Open a file that is there. -/
def openRead (p : Path) (F : Files Path Byte) : Files Path Byte :=
  { F with handle := some (p, 0) }

/-- Up to `n` bytes from the position on. -/
def read (n : ℕ) (F : Files Path Byte) : List Byte × Files Path Byte :=
  match F.handle with
  | none => ([], F)
  | some (p, pos) =>
    let bytes := (((F.contents p).getD []).drop pos).take n
    (bytes, { F with handle := some (p, pos + bytes.length) })

theorem At.file? (h : At p file pos F) : F.file? = some file := by
  simp [Files.file?, h.handle, h.contents]

theorem at_openRead (h : F.contents p = some file) : At p file 0 (F.openRead p) :=
  ⟨h, rfl⟩

/-- **Reading** hands out the bytes from the position on and moves past
them. -/
theorem At.read (h : At p file pos F) (n : ℕ) :
    (F.read n).1 = (file.drop pos).take n ∧
      At p file (pos + min n (file.length - pos)) (F.read n).2 := by
  have hread : F.read n = ((file.drop pos).take n,
      { F with handle := some (p, pos + ((file.drop pos).take n).length) }) := by
    simp [Files.read, h.handle, h.contents]
  rw [hread]
  exact ⟨rfl, h.contents, by simp⟩

end Read

section Write

variable [DecidableEq Path] {p : Path} {file : List Byte} {F : Files Path Byte}

/-- Open an empty file, whatever was there. -/
def create (p : Path) (F : Files Path Byte) : Files Path Byte :=
  ⟨Function.update F.contents p (some []), some (p, 0)⟩

/-- Put bytes at the position. -/
def write (bytes : List Byte) (F : Files Path Byte) : Files Path Byte :=
  match F.handle with
  | none => F
  | some (p, pos) =>
    let old := (F.contents p).getD []
    ⟨Function.update F.contents p (some (old.take pos ++ bytes ++ old.drop (pos + bytes.length))),
      some (p, pos + bytes.length)⟩

theorem at_create : At p [] 0 (F.create p) :=
  ⟨Function.update_self .., rfl⟩

/-- **Writing at the end appends.** -/
theorem At.write (h : At p file file.length F) (bytes : List Byte) :
    At p (file ++ bytes) (file ++ bytes).length (F.write bytes) := by
  have hdrop : file.drop (file.length + bytes.length) = [] :=
    List.drop_eq_nil_of_le (Nat.le_add_right _ _)
  have hnew : F.write bytes = ⟨Function.update F.contents p (some (file ++ bytes)),
      some (p, file.length + bytes.length)⟩ := by
    simp [Files.write, h.handle, h.contents, hdrop]
  rw [hnew]
  exact ⟨Function.update_self .., by simp⟩

end Write

end Files

end Ardep

import Ardep.Common.Files
import Ardep.Uds.Transfer.Invariant
/-!
# Transfer — the file system under a file transfer

What the handler relies on of Zephyr's file system is that it keeps
`Files`: each call that succeeds does to the files what its name says, and
one that fails does nothing to them. `FileLawful` is that; a write may
still fail or take fewer bytes than it was given. `FilesComplete` is a
file system with nothing in its way.

`fileSimulator` is one, over any rule for how many bytes a write takes.
-/

namespace Ardep

namespace Uds

namespace Transfer

/-- The files of a platform, by path. -/
abbrev FileView (σ : Type) : Type := σ → Files (List UInt8) UInt8

/-- **What is asked of the file system**, seen as files. An `fs_open` that
succeeds leaves the file open; `fs_write` fails without effect or takes
the first bytes it was given; `fs_stat` tells the size of a file that is
there; `fs_close` changes no contents. -/
structure Platform.FileLawful {w : ℕ} {σ : Type} (P : Platform w σ) (view : FileView σ) :
    Prop where
  init : ∀ t, (view (P.fsFileTInit t)).contents = (view t).contents
  open_write : ∀ path t, 0 ≤ (P.fsOpen path .createTruncRdwr t).1 →
    view (P.fsOpen path .createTruncRdwr t).2 = (view t).create path
  open_read : ∀ path t, 0 ≤ (P.fsOpen path .read t).1 →
    view (P.fsOpen path .read t).2 = (view t).openRead path
  stat_keeps : ∀ path t, view (P.fsStat path t).2 = view t
  stat_size : ∀ path t file, 0 ≤ (P.fsStat path t).1.1 → (view t).contents path = some file →
    (P.fsStat path t).1.2.isFile = true ∧
      (P.fsStat path t).1.2.size = BitVec.ofNat w file.length
  write_fails : ∀ data t, (P.fsWrite data t).1 < 0 → view (P.fsWrite data t).2 = view t
  write_takes : ∀ data t, 0 ≤ (P.fsWrite data t).1 →
    (P.fsWrite data t).1 ≤ data.length ∧
      view (P.fsWrite data t).2 = (view t).write (data.take (P.fsWrite data t).1.toNat)
  close : ∀ t, (view (P.fsClose t)).contents = (view t).contents

/-- **Nothing in its way**: a file that is there opens and has a status,
and the open file takes what it is given and gives what it has. -/
structure Platform.FilesComplete {w : ℕ} {σ : Type} (P : Platform w σ) (view : FileView σ) :
    Prop where
  open_existing : ∀ path t file, (view t).contents path = some file →
    0 ≤ (P.fsOpen path .read t).1
  stat_existing : ∀ path t file, (view t).contents path = some file → 0 ≤ (P.fsStat path t).1.1
  write_all : ∀ data t file, (view t).file? = some file → (P.fsWrite data t).1 = data.length
  read_all : ∀ n t file, (view t).file? = some file →
    (P.fsRead n t).1 = .ok ((view t).read n).1 ∧
      view (P.fsRead n t).2 = ((view t).read n).2

/-! ## What is left to read -/

/-- The bytes of the announced size that were not transferred yet. -/
def remaining {w : ℕ} (f : FileTransferState w) : BitVec w :=
  if f.transferred ≤ f.expectedSize then f.expectedSize - f.transferred else 0

theorem udsFileTransferRead_eq {cfg : Config} {σ : Type} {P : Platform cfg.wordBits σ}
    {s : System cfg.wordBits σ} {args : TransferDataArgs} {copyResponse : List UInt8 → UInt8}
    (hcopy : args.copyResponse = some copyResponse) :
    udsFileTransferRead cfg P args s =
      if remaining s.file = 0 then ({ code := .requestSequenceError }, s)
      else
        match P.fsRead (min args.maxRespLen.toNat (remaining s.file).toNat) s.world with
        | (.error rc, world) => ({ code := fsErrorToNrc rc }, { s with world := world })
        | (.ok bytes, world) =>
          if bytes.length = 0 then ({ code := .requestSequenceError }, { s with world := world })
          else if copyResponse bytes ≠ 0 then
            ({ code := .ofByte (copyResponse bytes), copied := some bytes },
              { s with world := world })
          else
            ({ code := .ok, copied := some bytes },
              { s with
                world := world
                file := { s.file with
                  transferred := s.file.transferred + BitVec.ofNat _ bytes.length } }) := by
  simp only [udsFileTransferRead, hcopy]
  rfl

/-! ## The file simulator -/

theorem fileSimulator_fileLawful (accepts : ℕ → ℕ → ℕ) :
    (fileSimulator accepts).FileLawful id where
  init t := rfl
  open_write path t _ := rfl
  open_read path t h := by
    have hsome : (t.contents path).isSome := by
      by_contra hnone
      simp [fileSimulator, hnone, ENOENT] at h
    simp [fileSimulator, hsome]
  stat_keeps path t := by
    simp only [fileSimulator]
    split <;> rfl
  stat_size path t file _ hfile := by
    have hfile : t.contents path = some file := hfile
    simp [fileSimulator, hfile]
  write_fails data t h := by
    cases hh : t.handle with
    | none => simp [fileSimulator, hh]
    | some h' =>
      simp only [fileSimulator, hh] at h
      omega
  write_takes data t h := by
    cases hh : t.handle with
    | none => simp [fileSimulator, hh, EINVAL] at h
    | some h' =>
      simp only [fileSimulator, hh, id, Int.toNat_natCast]
      exact ⟨by omega, trivial⟩
  close t := rfl

theorem fileSimulator_filesComplete : (fileSimulator allBytes).FilesComplete id where
  open_existing path t file h := by
    have h : t.contents path = some file := h
    simp [fileSimulator, h]
  stat_existing path t file h := by
    have h : t.contents path = some file := h
    simp [fileSimulator, h]
  write_all data t file h := by
    cases hh : t.handle with
    | none => simp [Files.file?, hh] at h
    | some h' => simp [fileSimulator, hh, allBytes]
  read_all n t file h := by
    cases hh : t.handle with
    | none => simp [Files.file?, hh] at h
    | some h' => simp [fileSimulator, hh]

end Transfer

end Uds

end Ardep

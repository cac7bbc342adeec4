/-
The watcher of a CA file (`tls/ca_watcher.go`).

A certificate pool is a cell of memory, and the watcher and the TLS
configurations hold addresses of cells.  `loadCA` never writes a pool that is
in use: it fills a clone and lets the watcher point to it.
-/

import McoaGateway.GoString

namespace McoaGateway.Tls

/-- What is used of the packages for certificates and hashes: the certificates
that `AppendCertsFromPEM` finds in a text, and `hashFile`. -/
structure Certificates where
  parse : GoString → List GoString
  hash : GoString → GoString

/-- The pools by their addresses; none is ever freed or changed. -/
abbrev Pools := List (List GoString)

def Pools.read (pools : Pools) (address : Nat) : List GoString :=
  pools.getD address []

theorem Pools.read_append (pools : Pools) (pool : List GoString) (address : Nat)
    (allocated : address < pools.length) :
    Pools.read (pools ++ [pool]) address = pools.read address := by
  rw [Pools.read, Pools.read, List.getD_eq_getElem?_getD, List.getD_eq_getElem?_getD,
    List.getElem?_append_left allocated]

theorem Pools.read_new (pools : Pools) (pool : List GoString) :
    Pools.read (pools ++ [pool]) pools.length = pool := by
  rw [Pools.read, List.getD_eq_getElem?_getD, List.getElem?_concat_length, Option.getD_some]

/-- `caCertificateWatcher`. -/
structure Watcher where
  certPool : Nat
  fileHashContent : GoString
deriving DecidableEq, Repr

structure LoadResult where
  failed : Bool
  pools : Pools
  watcher : Watcher
deriving DecidableEq, Repr

section

variable (certificates : Certificates)

/-- `loadCA`, with what the file held when it was hashed and when it was read;
`none` stands for an error. -/
def loadCA (hashed content : Option GoString) (pools : Pools) (w : Watcher) : LoadResult :=
  match hashed with
  | none => ⟨true, pools, w⟩
  | some hashedContent =>
      let hash := certificates.hash hashedContent
      if w.fileHashContent ≠ hash then
        match content with
        | none => ⟨true, pools, w⟩
        | some caPEM =>
            let added := certificates.parse caPEM
            -- The error that is returned here is that of the successful read.
            if added = [] then ⟨false, pools, w⟩
            else ⟨false, pools ++ [pools.read w.certPool ++ added], ⟨pools.length, hash⟩⟩
      else ⟨false, pools, w⟩

/-- The certificates which a poll loads, when it loads a new CA. -/
def loadedBy (fileHashContent : GoString) (hashed content : Option GoString) :
    Option (GoString × List GoString) :=
  match hashed, content with
  | some hashedContent, some caPEM =>
      if fileHashContent ≠ certificates.hash hashedContent ∧ certificates.parse caPEM ≠ [] then
        some (certificates.hash hashedContent, certificates.parse caPEM)
      else none
  | _, _ => none

theorem loadCA_eq (hashed content : Option GoString) (pools : Pools) (w : Watcher) :
    ((loadCA certificates hashed content pools w).pools,
        (loadCA certificates hashed content pools w).watcher) =
      match loadedBy certificates w.fileHashContent hashed content with
      | none => (pools, w)
      | some (hash, added) =>
          (pools ++ [pools.read w.certPool ++ added], ⟨pools.length, hash⟩) := by
  cases hashed with
  | none => rfl
  | some hashedContent =>
      rw [loadCA.eq_def]
      dsimp only
      by_cases changed : w.fileHashContent ≠ certificates.hash hashedContent
      · rw [if_pos changed]
        cases content with
        | none => rfl
        | some caPEM =>
            dsimp only [loadedBy]
            by_cases parsed : certificates.parse caPEM = []
            · rw [if_pos parsed, if_neg (fun both => both.2 parsed)]
            · rw [if_neg parsed, if_pos ⟨changed, parsed⟩]
      · rw [if_neg changed]
        cases content with
        | none => rfl
        | some caPEM =>
            dsimp only [loadedBy]
            rw [if_neg (fun both => changed both.1)]

/-- Whether a poll ends the watcher's loop does not depend on the pools. -/
def pollFails (fileHashContent : GoString) (hashed content : Option GoString) : Bool :=
  match hashed with
  | none => true
  | some hashedContent =>
      fileHashContent ≠ certificates.hash hashedContent && content.isNone

theorem loadCA_failed (hashed content : Option GoString) (pools : Pools) (w : Watcher) :
    (loadCA certificates hashed content pools w).failed =
      pollFails certificates w.fileHashContent hashed content := by
  cases hashed with
  | none => rfl
  | some hashedContent =>
      rw [loadCA.eq_def, pollFails]
      dsimp only
      by_cases changed : w.fileHashContent ≠ certificates.hash hashedContent
      · rw [if_pos changed]
        cases content with
        | none => simp [changed]
        | some caPEM =>
            dsimp only
            split
            · simp
            · simp
      · rw [if_neg changed]
        simp [changed]

end

end McoaGateway.Tls

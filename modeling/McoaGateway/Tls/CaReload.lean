/-
The watcher of a CA file, next to a file that changes (`tls/ca_watcher.go`).

`loadCA` opens the file twice, for its hash and for its content.  Here a call is
taken apart into the steps between which the file may change, and a run is any
sequence of these steps and of changes.
-/

import Mathlib.Data.List.Induction
import Mathlib.Logic.Function.Iterate
import McoaGateway.Tls.CaWatcher

namespace McoaGateway.Tls

open GoString

/-! ### The steps of `loadCA` -/

/-- How far the current call of `loadCA` has come. -/
inductive Stage where
  /-- No call is going on. -/
  | idle
  | hashed (hash : GoString)
  /-- The hash is not the stored one. -/
  | changed (hash : GoString)
  | read (hash caPEM : GoString)
  /-- A call has failed, and the watcher has returned its error. -/
  | stopped
deriving DecidableEq, Repr

structure Reload where
  /-- What the file holds; `none` when it cannot be read. -/
  file : Option GoString
  pools : Pools
  watcher : Watcher
  stage : Stage
  /-- How many calls have returned without an error. -/
  completed : Nat
deriving DecidableEq, Repr

inductive ReloadEvent where
  /-- The file is changed. -/
  | write (content : Option GoString)
  /-- The watcher takes its next step. -/
  | advance
deriving DecidableEq, Repr

namespace Reload

def start (file : Option GoString) (pool : List GoString) : Reload :=
  ⟨file, [pool], ⟨0, []⟩, .idle, 0⟩

def pool (s : Reload) : List GoString :=
  s.pools.read s.watcher.certPool

def finish (s : Reload) : Reload :=
  { s with stage := .idle, completed := s.completed + 1 }

section

variable (certificates : Certificates)

def advance (s : Reload) : Reload :=
  match s.stage with
  | .idle =>
      match s.file with
      | none => { s with stage := .stopped }
      | some content => { s with stage := .hashed (certificates.hash content) }
  | .hashed hash =>
      if s.watcher.fileHashContent ≠ hash then { s with stage := .changed hash } else s.finish
  | .changed hash =>
      match s.file with
      | none => { s with stage := .stopped }
      | some caPEM => { s with stage := .read hash caPEM }
  | .read hash caPEM =>
      let added := certificates.parse caPEM
      if added = [] then s.finish
      else
        { s with
          pools := s.pools ++ [s.pool ++ added]
          watcher := ⟨s.pools.length, hash⟩ }.finish
  | .stopped => s

def step (s : Reload) : ReloadEvent → Reload
  | .write content => { s with file := content }
  | .advance => s.advance certificates

def run (events : List ReloadEvent) (s : Reload) : Reload :=
  events.foldl (step certificates) s

/-- The steps of one call, when the file holds `content` at the time it is read. -/
def call (content : Option GoString) (s : Reload) : Reload :=
  let compared := (s.advance certificates).advance certificates
  match compared.stage with
  | .changed _ => run certificates [.write content, .advance, .advance] compared
  | _ => compared

/-- The steps together are `loadCA`. -/
theorem call_loadCA (content : Option GoString) (s : Reload) (isIdle : s.stage = .idle) :
    ((s.call certificates content).pools, (s.call certificates content).watcher) =
      ((loadCA certificates s.file content s.pools s.watcher).pools,
        (loadCA certificates s.file content s.pools s.watcher).watcher) := by
  obtain ⟨file, pools, watcher, stage, completed⟩ := s
  dsimp only at isIdle
  subst isIdle
  cases file with
  | none => rfl
  | some hashedContent =>
      rw [loadCA.eq_def]
      by_cases isChanged : watcher.fileHashContent ≠ certificates.hash hashedContent
      · cases content with
        | none => simp [call, advance, run, step, isChanged]
        | some caPEM =>
            by_cases parsed : certificates.parse caPEM = []
            · simp [call, advance, run, step, finish, isChanged, parsed]
            · simp [call, advance, run, step, finish, pool, isChanged, parsed]
      · simp [call, advance, finish, isChanged]

/-! ### What a step can do -/

theorem step_cases (s : Reload) (event : ReloadEvent) :
    ((s.step certificates event).pool = s.pool ∧
        (s.step certificates event).watcher.fileHashContent = s.watcher.fileHashContent) ∨
      ∃ hash caPEM, event = .advance ∧ s.stage = .read hash caPEM ∧
        certificates.parse caPEM ≠ [] ∧
        (s.step certificates event).pool = s.pool ++ certificates.parse caPEM ∧
        (s.step certificates event).watcher.fileHashContent = hash := by
  cases event with
  | write content => exact Or.inl ⟨rfl, rfl⟩
  | advance =>
      rw [step, advance]
      cases isStage : s.stage with
      | idle =>
          left
          cases s.file with
          | none => exact ⟨rfl, rfl⟩
          | some content => exact ⟨rfl, rfl⟩
      | hashed hash =>
          left
          dsimp only
          split
          · exact ⟨rfl, rfl⟩
          · exact ⟨rfl, rfl⟩
      | changed hash =>
          left
          cases s.file with
          | none => exact ⟨rfl, rfl⟩
          | some caPEM => exact ⟨rfl, rfl⟩
      | read hash caPEM =>
          dsimp only
          by_cases parsed : certificates.parse caPEM = []
          · rw [if_pos parsed]
            exact Or.inl ⟨rfl, rfl⟩
          · rw [if_neg parsed]
            exact Or.inr ⟨hash, caPEM, rfl, rfl, parsed, Pools.read_new _ _, rfl⟩
      | stopped => exact Or.inl ⟨rfl, rfl⟩

theorem pool_subset_step (s : Reload) (event : ReloadEvent) :
    s.pool ⊆ (s.step certificates event).pool := by
  rcases s.step_cases certificates event with ⟨same, _⟩ | ⟨_, _, _, _, _, grown, _⟩
  · rw [same]
    exact List.Subset.refl _
  · rw [grown]
    exact List.subset_append_left _ _

theorem pool_subset_advances (n : Nat) (s : Reload) :
    s.pool ⊆ ((advance certificates)^[n] s).pool := by
  induction n generalizing s with
  | zero => exact List.Subset.refl _
  | succ n ih =>
      rw [Function.iterate_succ_apply]
      exact List.Subset.trans (s.pool_subset_step certificates .advance) (ih _)

/-! ### What must hold of a state -/

/-- The certificates of the content whose hash is stored are in the pool. -/
def Consistent (s : Reload) : Prop :=
  ∀ content, certificates.hash content = s.watcher.fileHashContent →
    certificates.parse content ⊆ s.pool

structure Sound (s : Reload) : Prop where
  consistent : s.Consistent certificates
  grows : ∀ event, s.pool ⊆ (s.step certificates event).pool
  unread : (s.stage = .idle ∨ ∃ hash, s.stage = .changed hash) → s.file = none →
    (s.advance certificates).pool = s.pool ∧
      (s.advance certificates).watcher.fileHashContent = s.watcher.fileHashContent
  unparsed : ∀ hash caPEM, s.stage = .read hash caPEM → certificates.parse caPEM = [] →
    (s.advance certificates).pool = s.pool ∧
      (s.advance certificates).watcher.fileHashContent = s.watcher.fileHashContent
  /-- What stays in the file while two calls come and go is in the pool then. -/
  loaded : ∀ content n, s.stage = .idle → s.file = some content →
    certificates.parse content ≠ [] →
    s.completed + 2 ≤ ((advance certificates)^[n] s).completed →
    certificates.parse content ⊆ ((advance certificates)^[n] s).pool

/-- A content that is about to be loaded has all the certificates of the content
that was hashed, apart from those in the pool. -/
def Covers (s : Reload) : Prop :=
  ∀ hash caPEM, s.stage = .read hash caPEM → certificates.parse caPEM ≠ [] →
    ∀ content, certificates.hash content = hash →
      certificates.parse content ⊆ s.pool ++ certificates.parse caPEM

theorem consistent_step (s : Reload) (event : ReloadEvent)
    (consistent : s.Consistent certificates)
    (covers : event = .advance → s.Covers certificates) :
    (s.step certificates event).Consistent certificates := by
  intro content isStored
  rcases s.step_cases certificates event with ⟨samePool, sameHash⟩ |
    ⟨hash, caPEM, isAdvance, isRead, parsed, grown, newHash⟩
  · rw [samePool]
    exact consistent content (isStored.trans sameHash)
  · rw [grown]
    exact covers isAdvance hash caPEM isRead parsed content (isStored.trans newHash)

theorem covers_of_consistent_step (s : Reload)
    (consistent : (s.step certificates .advance).Consistent certificates) :
    s.Covers certificates := by
  intro hash caPEM isRead parsed content isHash
  rcases s.step_cases certificates .advance with ⟨samePool, sameHash⟩ |
    ⟨ownHash, ownPEM, _, isOwn, _, grown, newHash⟩
  · -- The step swaps the pool, so it cannot leave it as it is.
    have grown : (s.step certificates .advance).pool = s.pool ++ certificates.parse caPEM := by
      rw [step, advance, isRead]
      dsimp only
      rw [if_neg parsed]
      exact Pools.read_new _ _
    rw [samePool] at grown
    exact absurd (List.self_eq_append_right.mp grown) parsed
  · rw [isRead] at isOwn
    cases isOwn
    rw [← grown]
    exact consistent content (isHash.trans newHash.symm)

theorem loaded_of_consistent (s : Reload) (consistent : s.Consistent certificates)
    (content : GoString) (n : Nat) (isIdle : s.stage = .idle) (isFile : s.file = some content)
    (parsed : certificates.parse content ≠ [])
    (twice : s.completed + 2 ≤ ((advance certificates)^[n] s).completed) :
    certificates.parse content ⊆ ((advance certificates)^[n] s).pool := by
  by_cases isChanged : s.watcher.fileHashContent ≠ certificates.hash content
  · obtain ⟨file, pools, watcher, stage, completed⟩ := s
    dsimp only at isIdle isFile isChanged
    subst isIdle
    subst isFile
    rcases Nat.lt_or_ge n 4 with early | late
    · -- The first call takes four steps.
      have short : ((advance certificates)^[n]
          ⟨some content, pools, watcher, .idle, completed⟩).completed = completed := by
        have few : n = 0 ∨ n = 1 ∨ n = 2 ∨ n = 3 := by omega
        rcases few with rfl | rfl | rfl | rfl
        · rfl
        · rfl
        · simp [advance, isChanged]
        · simp [advance, isChanged]
      rw [short] at twice
      dsimp only at twice
      omega
    · obtain ⟨rest, rfl⟩ := Nat.exists_eq_add_of_le' late
      rw [Function.iterate_add_apply]
      refine List.Subset.trans ?_ (pool_subset_advances certificates rest _)
      have swapped : ((advance certificates)^[4]
          ⟨some content, pools, watcher, .idle, completed⟩).pool =
            pools.read watcher.certPool ++ certificates.parse content := by
        simp only [Function.iterate_succ, Function.iterate_zero, Function.comp_apply, id_eq,
          advance, if_pos isChanged, if_neg parsed]
        exact Pools.read_new _ _
      rw [swapped]
      exact List.subset_append_right _ _
  · exact List.Subset.trans (consistent content (not_not.mp isChanged).symm)
      (pool_subset_advances certificates n s)

theorem sound_of_consistent (s : Reload) (consistent : s.Consistent certificates) :
    s.Sound certificates where
  consistent := consistent
  grows event := s.pool_subset_step certificates event
  unread reads isMissing := by
    rw [advance]
    rcases reads with isIdle | ⟨hash, isChanged⟩
    · rw [isIdle, isMissing]
      exact ⟨rfl, rfl⟩
    · rw [isChanged, isMissing]
      exact ⟨rfl, rfl⟩
  unparsed hash caPEM isRead unparsed := by
    rw [advance, isRead]
    dsimp only
    rw [if_pos unparsed]
    exact ⟨rfl, rfl⟩
  loaded content n := s.loaded_of_consistent certificates consistent content n

/-! ### Runs -/

theorem run_append (first second : List ReloadEvent) (s : Reload) :
    run certificates (first ++ second) s = run certificates second (run certificates first s) :=
  List.foldl_append

/-- In a run, all states are sound exactly if at every step a content that is
loaded covers the content that was hashed. -/
theorem sound_iff (hashText : ∀ content, certificates.hash content ≠ [])
    (file : Option GoString) (pool : List GoString) (events : List ReloadEvent) :
    (∀ before after, events = before ++ after →
        (run certificates before (start file pool)).Sound certificates) ↔
      ∀ before after, events = before ++ .advance :: after →
        (run certificates before (start file pool)).Covers certificates := by
  constructor
  · intro sound before after isRun
    apply covers_of_consistent_step
    have next := sound (before ++ [.advance]) after (by rw [isRun, List.append_assoc]; rfl)
    rw [run_append] at next
    exact next.consistent
  · intro covers before after isRun
    apply sound_of_consistent
    -- By induction on the run up to this state, from its beginning.
    induction before using List.reverseRecOn generalizing after with
    | nil =>
        intro content isStored
        exact absurd isStored (hashText content)
    | append_singleton before event ih =>
        rw [run_append]
        apply consistent_step
        · exact ih (event :: after) (by rw [isRun, List.append_assoc]; rfl)
        · rintro rfl
          exact covers before after (by rw [isRun, List.append_assoc]; rfl)

end

end Reload

/-! A file that holds one certificate, under a hash that is its own text. -/

def singleCertificates : Certificates where
  parse content := [content]
  hash content := byte 'h' :: content

def oldCA : GoString := ascii "old"

def newCA : GoString := ascii "new"

/-- A run in which the file does not change between the two reads. -/
theorem sound_quiet :
    Reload.run singleCertificates [.advance, .advance, .advance, .advance]
        (.start (some oldCA) []) =
      ⟨some oldCA, [[], [oldCA]], ⟨1, ascii "hold"⟩, .idle, 1⟩ ∧
      ((∀ before after, [.advance, .advance, .advance, .advance] = before ++ after →
          (Reload.run singleCertificates before (.start (some oldCA) [])).Sound
            singleCertificates) ↔
        ∀ before after, [.advance, .advance, .advance, .advance] = before ++ .advance :: after →
          (Reload.run singleCertificates before (.start (some oldCA) [])).Covers
            singleCertificates) := by
  refine ⟨by decide +kernel, ?_⟩
  exact Reload.sound_iff singleCertificates (fun content => List.cons_ne_nil _ _) _ _ _

/-- The file holds the old CA when it is hashed, the new one when it is read, and
the old one from then on. -/
def changedAndBack : List ReloadEvent :=
  [.advance, .advance, .write (some newCA), .advance, .advance, .write (some oldCA)]

/-- The certificate of the old CA, whose hash is stored, is not in the pool, and
two more calls do not load it. -/
theorem changedAndBack_inconsistent :
    let s := Reload.run singleCertificates changedAndBack (.start (some oldCA) [])
    s.watcher.fileHashContent = singleCertificates.hash oldCA ∧ s.stage = .idle ∧
      s.file = some oldCA ∧ s.pool = [newCA] ∧
      ((Reload.advance singleCertificates)^[4] s).completed = s.completed + 2 ∧
      ((Reload.advance singleCertificates)^[4] s).pool = [newCA] := by
  decide +kernel

end McoaGateway.Tls

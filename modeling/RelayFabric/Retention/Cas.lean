/- source: cas.rs (Cas::new, existing_bytes, put, path_for, get, remove)
   digest: The attachment store is a finite map from digests to blobs that counts its bytes. -/

import Mathlib.Data.String.Basic
import RelayFabric.Daemon
import RelayFabric.Lib.Keyed

namespace RelayFabric.Cas

open List Lib

inductive Request
  | put (data : Bytes)
  | get (sha : String)
  | remove (sha : String)
  deriving DecidableEq

def serve (K : Crypto) (c : Cas) : Request → Cas
  | .put data => (c.put K data).2
  | .get _ => c
  | .remove sha => c.remove sha

abbrev Blobs (K : Crypto) := Keyed Bytes K.sha256

def size {K : Crypto} (dir : Blobs K) : Nat := (dir.rows.map length).sum

def opened {K : Crypto} (dir : Blobs K) (budgetBytes : Nat) : Cas :=
  ⟨dir.get?, budgetBytes, size dir⟩

def Known {K : Crypto} (dir : Blobs K) (requests : List Request) (data : Bytes) : Prop :=
  data ∈ dir.rows ∨ .put data ∈ requests

structure Keeps {K : Crypto} (held : Blobs K) (c : Cas) : Prop where
  blobs : c.blobs = held.get?
  total : c.totalBytes = size held

def Reached {K : Crypto} (dir : Blobs K) (budget : Nat) (requests : List Request) (c : Cas) :
    Prop :=
  ∃ held : Blobs K, Keeps held c ∧ (∀ data ∈ held.rows, Known dir requests data) ∧
    c.budgetBytes = budget ∧ (0 < budget → size held ≤ max budget (size dir))

section

variable {K : Crypto} {held : Blobs K} {c : Cas} {data : Bytes} {sha : String}

theorem size_keep (held : Blobs K) (sha : String) :
    size (held.keep (fun data => K.sha256 data ≠ sha)) + (held.get? sha).elim 0 length =
      size held := by
  cases found : held.get? sha with
  | none =>
    have all : (held.keep (fun data => K.sha256 data ≠ sha)).rows = held.rows :=
      filter_eq_self.mpr
        (fun data member => decide_eq_true (held.get?_eq_none.mp found data member))
    rw [size, all]
    rfl
  | some data =>
    obtain ⟨member, rfl⟩ := held.get?_eq_some.mp found
    obtain ⟨front, back, rows⟩ := append_of_mem member
    have distinct := held.distinct
    rw [rows, map_append, map_cons, nodup_middle, nodup_cons, ← map_append] at distinct
    have others : (front ++ back).filter (fun other => K.sha256 other ≠ K.sha256 data) =
        front ++ back :=
      filter_eq_self.mpr (fun other listed => decide_eq_true (fun same =>
        distinct.1 (mem_map.mpr ⟨other, listed, same⟩)))
    have kept : (held.keep (fun other => K.sha256 other ≠ K.sha256 data)).rows = front ++ back := by
      rw [← others, filter_append]
      unfold Keyed.keep
      simp [rows]
    rw [size, size, kept, rows]
    simp
    omega

theorem get?_keep (held : Blobs K) (sha k : String) :
    (held.keep (fun data => K.sha256 data ≠ sha)).get? k = if k = sha then none
      else held.get? k := by
  rw [Keyed.get?_keep]
  cases found : held.get? k with
  | none => simp
  | some data =>
    obtain ⟨_, rfl⟩ := held.get?_eq_some.mp found
    by_cases same : K.sha256 data = sha <;> simp [Option.filter, same]

namespace Keeps

theorem get (keeps : Keeps held c) (digests : ∀ data, isValidSha (K.sha256 data) = true)
    (sha : String) : c.get K sha = held.get? sha := by
  unfold Cas.get
  rw [keeps.blobs]
  cases found : held.get? sha with
  | none => simp
  | some data =>
    obtain ⟨_, rfl⟩ := held.get?_eq_some.mp found
    simp [digests]

theorem put_cases (keeps : Keeps held c) (data : Bytes) :
    held.get? (K.sha256 data) ≠ none ∧ c.put K data = (some (K.sha256 data), c) ∨
    held.get? (K.sha256 data) = none ∧
      ((0 < c.budgetBytes ∧ c.budgetBytes < c.totalBytes + data.length ∧ c.put K data = (none, c)) ∨
      ¬(0 < c.budgetBytes ∧ c.budgetBytes < c.totalBytes + data.length) ∧
        c.put K data = (some (K.sha256 data), { c with
          blobs := c.blobs.insert (K.sha256 data) data, totalBytes :=
            c.totalBytes + data.length })) := by
  unfold Cas.put Map.contains
  rw [← keeps.blobs]
  cases found : c.blobs (K.sha256 data) with
  | some old => simp [found]
  | none =>
    by_cases full : 0 < c.budgetBytes ∧ c.budgetBytes < c.totalBytes +
      data.length <;> simp [found, full]

theorem append (keeps : Keeps held c) (data : Bytes) (fresh : held.get? (K.sha256 data) = none) :
    Keeps (held.append data fresh) { c with
      blobs := c.blobs.insert (K.sha256 data) data, totalBytes := c.totalBytes + data.length } := by
  refine ⟨funext (fun k => ?_), ?_⟩
  · rw [held.get?_append, ← keeps.blobs]
    exact Map.insert_apply ..
  · simp [keeps.total, size, Keyed.append]

theorem remove (keeps : Keeps held c) (valid : isValidSha sha = true) :
    Keeps (held.keep (fun data => K.sha256 data ≠ sha)) (c.remove sha) := by
  unfold Cas.remove
  rw [if_pos valid]
  refine ⟨funext (fun k => ?_), ?_⟩
  · rw [get?_keep, ← keeps.blobs]
    exact Map.erase_apply ..
  · have rest := size_keep held sha
    dsimp only
    rw [keeps.blobs, keeps.total]
    omega

end Keeps

theorem Keeps.serve (keeps : Keeps held c) (request : Request) : ∃ held' : Blobs K,
    Keeps held' (serve K c request) ∧ (serve K c request).budgetBytes = c.budgetBytes ∧
    (∀ data ∈ held'.rows, data ∈ held.rows ∨ request = .put data) ∧
    (0 < c.budgetBytes → size held' ≤ max c.budgetBytes (size held)) ∧
    ∀ sha data, request ≠ .remove sha → held.get? sha = some data → held'.get? sha = some data := by
  have same : Keeps held c ∧ c.budgetBytes = c.budgetBytes ∧
      (∀ data ∈ held.rows, data ∈ held.rows ∨ request = .put data) ∧
      (0 < c.budgetBytes → size held ≤ max c.budgetBytes (size held)) ∧
      ∀ sha data, request ≠ .remove sha → held.get? sha = some data → held.get? sha = some data :=
    ⟨keeps, rfl, fun _ => .inl, fun _ => le_max_right .., fun _ _ _ found => found⟩
  cases request with
  | get => exact ⟨held, same⟩
  | put data =>
    dsimp only [Cas.serve]
    rcases keeps.put_cases data with ⟨_, eq⟩ | ⟨fresh, ⟨_, _, eq⟩ | ⟨room, eq⟩⟩
    · rw [eq]
      exact ⟨held, same⟩
    · rw [eq]
      exact ⟨held, same⟩
    · have after := keeps.append data fresh
      rw [eq]
      refine ⟨held.append data fresh, after, rfl, fun other member => ?_, fun limited => ?_, ?_⟩
      · rcases mem_append.mp member with old | new
        · exact .inl old
        · rw [mem_singleton.mp new]
          exact .inr rfl
      · have total := after.total
        have before := keeps.total
        dsimp only at total
        omega
      · intro sha other _ found
        rw [held.get?_append, if_neg ?_]
        · exact found
        · rintro rfl
          exact absurd found (by simp [fresh])
  | remove sha =>
    dsimp only [Cas.serve]
    by_cases valid : isValidSha sha = true
    · refine ⟨_, keeps.remove valid, ?_, fun data member => .inl (mem_of_mem_filter member), ?_, ?_⟩
      · unfold Cas.remove
        rw [if_pos valid]
      · have rest := size_keep held sha
        omega
      · intro other data kept found
        rw [get?_keep, if_neg (fun named => kept (by rw [named]))]
        exact found
    · rw [show c.remove sha = c from if_neg valid]
      exact ⟨held, same⟩

theorem reached (dir : Blobs K) (budget : Nat) (requests : List Request) :
    Reached dir budget requests (requests.foldl (serve K) (opened dir budget)) := by
  refine foldlRecOn requests (serve K) ⟨dir, ⟨rfl, rfl⟩, fun _ => .inl, rfl, fun _ => ?_⟩ ?_
  · exact le_max_right ..
  rintro c ⟨held, keeps, known, same, bounded⟩ request asked
  obtain ⟨held', keeps', same', added, within, _⟩ := keeps.serve request
  refine ⟨held', keeps', fun data member => ?_, same'.trans same, fun limited => ?_⟩
  · rcases added data member with old | rfl
    · exact known data old
    · exact .inr asked
  · have before := bounded limited
    have after := within (same ▸ limited)
    omega

end

end RelayFabric.Cas

import SolanaTx.Invocation.Forest
import SolanaTx.Proofs.Fallible
import SolanaTx.Proofs.Invocation.Wording
import SolanaTx.Proofs.Tree.LastBranch

/-!
# Decoding keeps the forest

Decoding puts paths and payloads to the nodes of a forest and changes neither their
order nor their places. It succeeds where each node can be decoded and each anomaly
can be written.
-/

namespace SolanaTx

open Fallible

namespace Tree

variable {α β γ ε : Type}

mutual

theorem map_eq_of_mapExcept {f : α → Except ε β} {g : β → γ} {h : α → γ}
    (hf : ∀ v w, f v = .ok w → g w = h v) {t : Tree α} {u : Tree β}
    (hu : t.mapExcept f = .ok u) : u.map g = t.map h := by
  obtain ⟨v, cs⟩ := t
  simp only [mapExcept, bind_eq_ok, pure_eq_ok] at hu
  obtain ⟨w, hw, us, hus, rfl⟩ := hu
  rw [map, map, hf v w hw, mapAll_eq_of_mapExceptAll hf hus]

theorem mapAll_eq_of_mapExceptAll {f : α → Except ε β} {g : β → γ} {h : α → γ}
    (hf : ∀ v w, f v = .ok w → g w = h v) {ts : List (Tree α)} {us : List (Tree β)}
    (hus : mapExceptAll f ts = .ok us) : mapAll g us = mapAll h ts := by
  cases ts with
  | nil =>
      obtain rfl := Except.ok.inj hus
      rfl
  | cons t rest =>
      simp only [mapExceptAll, bind_eq_ok, pure_eq_ok] at hus
      obtain ⟨u, hu, us, hus, rfl⟩ := hus
      rw [mapAll, mapAll, map_eq_of_mapExcept hf hu, mapAll_eq_of_mapExceptAll hf hus]

end

mutual

theorem exists_mapExcept_iff (f : α → Except ε β) (t : Tree α) :
    (∃ u, t.mapExcept f = .ok u) ↔ ∀ v ∈ t.preorder, ∃ w, f v = .ok w := by
  obtain ⟨v, cs⟩ := t
  have hcs := exists_mapExceptAll_iff f cs
  simp only [mapExcept, bind_eq_ok, pure_eq_ok, preorder, List.forall_mem_cons, ← hcs]
  constructor
  · rintro ⟨u, w, hw, us, hus, -⟩
    exact ⟨⟨w, hw⟩, us, hus⟩
  · rintro ⟨⟨w, hw⟩, us, hus⟩
    exact ⟨_, w, hw, us, hus, rfl⟩

theorem exists_mapExceptAll_iff (f : α → Except ε β) (ts : List (Tree α)) :
    (∃ us, mapExceptAll f ts = .ok us) ↔ ∀ v ∈ preorderAll ts, ∃ w, f v = .ok w := by
  cases ts with
  | nil => simp [mapExceptAll, preorderAll]
  | cons t rest =>
      have ht := exists_mapExcept_iff f t
      have hrest := exists_mapExceptAll_iff f rest
      simp only [mapExceptAll, bind_eq_ok, pure_eq_ok, preorderAll, List.forall_mem_append, ← ht,
        ← hrest]
      constructor
      · rintro ⟨_, u, hu, us, hus, -⟩
        exact ⟨⟨u, hu⟩, us, hus⟩
      · rintro ⟨⟨u, hu⟩, us, hus⟩
        exact ⟨_, u, hu, us, hus, rfl⟩

end

mutual

/-- The values of a tree that is mapped come of its own, one by one. -/
theorem forall₂_of_mapExcept {f : α → Except ε β} {t : Tree α} {u : Tree β}
    (hu : t.mapExcept f = .ok u) :
    List.Forall₂ (fun v w => f v = .ok w) t.preorder u.preorder := by
  obtain ⟨v, cs⟩ := t
  simp only [mapExcept, bind_eq_ok, pure_eq_ok] at hu
  obtain ⟨w, hw, us, hus, rfl⟩ := hu
  exact .cons hw (forall₂_of_mapExceptAll hus)

theorem forall₂_of_mapExceptAll {f : α → Except ε β} {ts : List (Tree α)} {us : List (Tree β)}
    (hus : mapExceptAll f ts = .ok us) :
    List.Forall₂ (fun v w => f v = .ok w) (preorderAll ts) (preorderAll us) := by
  cases ts with
  | nil =>
      obtain rfl := Except.ok.inj hus
      exact .nil
  | cons t rest =>
      simp only [mapExceptAll, bind_eq_ok, pure_eq_ok] at hus
      obtain ⟨u, hu, us, hus, rfl⟩ := hus
      exact List.rel_append (forall₂_of_mapExcept hu) (forall₂_of_mapExceptAll hus)

end

mutual

theorem map_snd_numbered (f : α → β) (path : List Nat) (t : Tree α) :
    (t.numbered path).map (fun item => f item.2) = t.map f := by
  obtain ⟨v, cs⟩ := t
  rw [numbered, map, map, mapAll_snd_numberedFrom f path 1 cs]

theorem mapAll_snd_numberedFrom (f : α → β) (path : List Nat) (i : Nat) (ts : List (Tree α)) :
    mapAll (fun item => f item.2) (numberedFrom path i ts) = mapAll f ts := by
  cases ts with
  | nil => rfl
  | cons t rest =>
      rw [numberedFrom, mapAll, mapAll, map_snd_numbered f (path ++ [i]) t,
        mapAll_snd_numberedFrom f path (i + 1) rest]

end

mutual

theorem numbered_map (f : α → β) (path : List Nat) (t : Tree α) :
    (t.map f).numbered path = (t.numbered path).map fun item => (item.1, f item.2) := by
  obtain ⟨v, cs⟩ := t
  rw [map, numbered, numbered, map, numberedFrom_mapAll f path 1 cs]

/-- Paths depend on the shape of trees only. -/
theorem numberedFrom_mapAll (f : α → β) (path : List Nat) (i : Nat) (ts : List (Tree α)) :
    numberedFrom path i (mapAll f ts) =
      mapAll (fun item => (item.1, f item.2)) (numberedFrom path i ts) := by
  cases ts with
  | nil => rfl
  | cons t rest =>
      rw [mapAll, numberedFrom, numberedFrom, mapAll, numbered_map f (path ++ [i]) t,
        numberedFrom_mapAll f path (i + 1) rest]

end

mutual

theorem map_id_eq (t : Tree α) : t.map (fun v => v) = t := by
  obtain ⟨v, cs⟩ := t
  rw [map, mapAll_id_eq cs]

theorem mapAll_id_eq (ts : List (Tree α)) : mapAll (fun v => v) ts = ts := by
  cases ts with
  | nil => rfl
  | cons t rest => rw [mapAll, map_id_eq t, mapAll_id_eq rest]

end

end Tree

/-- The node of an invocation shows that invocation. -/
theorem Invocation.invocation_of_node {r : Registry} {path : List Nat} {v : Invocation} {n : Node}
    (hn : v.node r path = .ok n) : n.invocation = v := by
  simp only [Invocation.node, bind_eq_ok, pure_eq_ok] at hn
  obtain ⟨outcome, -, rfl⟩ := hn
  rfl

theorem Invocation.path_of_node {r : Registry} {path : List Nat} {v : Invocation} {n : Node}
    (hn : v.node r path = .ok n) : n.path = path := by
  simp only [Invocation.node, bind_eq_ok, pure_eq_ok] at hn
  obtain ⟨outcome, -, rfl⟩ := hn
  rfl

theorem Invocation.exists_node_iff {r : Registry} {path : List Nat} {v : Invocation} :
    (∃ n, v.node r path = .ok n) ↔ ∃ outcome, v.decode r = .ok outcome := by
  simp only [Invocation.node, bind_eq_ok, pure_eq_ok]
  constructor
  · rintro ⟨_, outcome, houtcome, -⟩
    exact ⟨outcome, houtcome⟩
  · rintro ⟨outcome, houtcome⟩
    exact ⟨_, outcome, houtcome, rfl⟩

theorem checkDecoding_eq_ok {r : Registry} {vs : List Invocation} :
    checkDecoding r vs = .ok () ↔ ∀ v ∈ vs, ∃ outcome, v.decode r = .ok outcome := by
  simp only [checkDecoding, forM_eq_ok, List.mem_mergeSort, map_eq_ok, and_true]

namespace Forest

variable {r : Registry} {f : Forest Invocation} {g : Forest Node}

theorem decode_eq_ok_iff :
    f.decode r = .ok g ↔ (∀ v ∈ f.walk, ∃ outcome, v.decode r = .ok outcome) ∧
      (∀ w ∈ f.warnings, w.anomaly.isWritable) ∧ g.warnings = f.warnings ∧
      Tree.mapExceptAll (fun item => item.2.node r item.1) (Tree.numberedFrom [] 1 f.trees) =
        .ok g.trees := by
  unfold decode
  rw [bind_eq_ok, ← checkDecoding_eq_ok]
  constructor
  · rintro ⟨_, hcheck, hrest⟩
    split at hrest
    · cases hrest
    · next hwritable =>
      simp only [bind_eq_ok, pure_eq_ok] at hrest
      obtain ⟨trees, htrees, rfl⟩ := hrest
      exact ⟨hcheck, by simpa using hwritable, rfl, htrees⟩
  · rintro ⟨hcheck, hwritable, hwarnings, htrees⟩
    refine ⟨(), hcheck, ?_⟩
    rw [if_neg (by simpa using hwritable)]
    simp only [bind_eq_ok, pure_eq_ok]
    obtain ⟨trees, warnings⟩ := g
    obtain rfl : warnings = f.warnings := hwarnings
    exact ⟨trees, htrees, rfl⟩

/-- The nodes of a decoded forest are the invocations, each in its place. -/
theorem mapAll_invocation_of_decode (hg : f.decode r = .ok g) :
    Tree.mapAll Node.invocation g.trees = f.trees := by
  have htrees := (decode_eq_ok_iff.mp hg).2.2.2
  have hnode : ∀ (item : List Nat × Invocation) (n : Node),
      item.2.node r item.1 = .ok n → n.invocation = item.2 :=
    fun _ _ hn => Invocation.invocation_of_node hn
  rw [Tree.mapAll_eq_of_mapExceptAll hnode htrees, Tree.mapAll_snd_numberedFrom (fun v => v)]
  exact Tree.mapAll_id_eq f.trees

theorem map_invocation_walk_of_decode (hg : f.decode r = .ok g) :
    g.walk.map Node.invocation = f.walk := by
  rw [walk, walk, ← mapAll_invocation_of_decode hg, Tree.preorderAll_mapAll]

/-- Their paths are the places, and what is seen of them is seen of the invocations. -/
theorem mapAll_path_of_decode (hg : f.decode r = .ok g) {γ : Type} (view : Invocation → γ) :
    Tree.mapAll (fun n => (n.path, view n.invocation)) g.trees =
      Tree.numberedFrom [] 1 (Tree.mapAll view f.trees) := by
  have htrees := (decode_eq_ok_iff.mp hg).2.2.2
  have hnode : ∀ (item : List Nat × Invocation) (n : Node), item.2.node r item.1 = .ok n →
      (n.path, view n.invocation) = (item.1, view item.2) := by
    intro item n hn
    rw [Invocation.path_of_node hn, Invocation.invocation_of_node hn]
  rw [Tree.mapAll_eq_of_mapExceptAll hnode htrees, Tree.numberedFrom_mapAll]

/-- Each node shows the outcome of its own invocation. -/
theorem exists_outcome_of_decode (hg : f.decode r = .ok g) {n : Node} (hn : n ∈ g.walk) :
    ∃ outcome, n.invocation.decode r = .ok outcome ∧ n.outcome = some outcome := by
  have hnodes := Tree.forall₂_of_mapExceptAll (decode_eq_ok_iff.mp hg).2.2.2
  obtain ⟨item, -, hnode⟩ := exists_mem_of_forall₂ hnodes.flip n hn
  simp only [Invocation.node, bind_eq_ok, pure_eq_ok] at hnode
  obtain ⟨outcome, houtcome, rfl⟩ := hnode
  exact ⟨outcome, houtcome, rfl⟩

/-- A forest is decoded where each invocation is, and each anomaly has a text. -/
theorem exists_decode_iff :
    (∃ g, f.decode r = .ok g) ↔ (∀ v ∈ f.walk, ∃ outcome, v.decode r = .ok outcome) ∧
      ∀ w ∈ f.warnings, w.anomaly.isWritable := by
  constructor
  · rintro ⟨g, hg⟩
    have hparts := decode_eq_ok_iff.mp hg
    exact ⟨hparts.1, hparts.2.1⟩
  · rintro ⟨hdecode, hwritable⟩
    have htrees : ∃ trees, Tree.mapExceptAll (fun item => item.2.node r item.1)
        (Tree.numberedFrom [] 1 f.trees) = .ok trees := by
      rw [Tree.exists_mapExceptAll_iff]
      intro item hitem
      rw [Invocation.exists_node_iff]
      apply hdecode
      have hwalk : item.2 ∈ (Tree.preorderAll (Tree.numberedFrom [] 1 f.trees)).map (·.2) :=
        List.mem_map_of_mem hitem
      rw [← Tree.preorderAll_mapAll, Tree.mapAll_snd_numberedFrom (fun v => v),
        Tree.mapAll_id_eq] at hwalk
      exact hwalk
    obtain ⟨trees, htrees⟩ := htrees
    exact ⟨⟨trees, f.warnings⟩, decode_eq_ok_iff.mpr ⟨hdecode, hwritable, rfl, htrees⟩⟩

end Forest

/-- A forest of nodes comes of a log that is read to its end. -/
theorem decodeForest_eq_ok_iff {r : Registry} {instructions : List Instruction}
    {inner : List InnerInstruction} {log : Log} {g : Forest Node} :
    decodeForest r instructions inner log = .ok g ↔
      log.fault = none ∧ (buildForest instructions inner log.markers).decode r = .ok g := by
  unfold decodeForest
  cases log.fault with
  | none => simp
  | some fault =>
      simp only [reduceCtorEq, false_and, iff_false, bind_eq_ok, not_exists, not_and]
      intro _ _ hthrow
      cases hthrow

/-- Of lines that are all read, only what they say counts. -/
theorem decodeForest_of_forall {r : Registry} {instructions : List Instruction}
    {inner : List InnerInstruction} {lines : List Text} {markers : List (Option Marker)}
    (h : List.Forall₂ (fun line marker => Marker.ofLine line = .ok marker) lines markers) :
    decodeForest r instructions inner (.ofLines lines) =
      (buildForest instructions inner markers).decode r := by
  rw [Log.ofLines_eq_of_forall h]
  rfl

end SolanaTx

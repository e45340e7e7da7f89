import Mathlib.Data.List.Induction
import Mathlib.Data.List.Forall2
import Mathlib.Data.List.Nodup

/-!
# Hash chains

This file develops hash-linked lists over arbitrary types of hashes and bodies.
A link stores the hash of its predecessor, a body, and its own hash, and a list
of links is chained from a hash when every link stores the running head and is
correctly hashed.

The hash of a link from its predecessor and its body is an arbitrary function.
Results that need it to identify its arguments take that as a hypothesis about
the links at hand (`Separates`), so that they apply to a function that is only
assumed to have no collision among the inputs in use. Bodies are compared by an
arbitrary relation, since a hash may only see a normal form of a body.
-/

namespace HashChain

/-- An element of a chain. -/
structure Link (B H : Type) where
  prev : H
  body : B
  hash : H

variable {B H : Type}

/-- The hash of the last link, or the starting hash. -/
def head (start : H) : List (Link B H) → H
  | [] => start
  | link :: links => head link.hash links

/-- Every link stores the running head and is hashed from it and its body. -/
def Chained (hashOf : H → B → H) : H → List (Link B H) → Prop
  | _, [] => True
  | start, link :: links =>
      link.prev = start ∧ link.hash = hashOf link.prev link.body ∧
        Chained hashOf link.hash links

@[simp]
theorem head_append_singleton (start : H) (links : List (Link B H)) (link : Link B H) :
    head start (links ++ [link]) = link.hash := by
  induction links generalizing start with
  | nil => rfl
  | cons first links ih => exact ih first.hash

theorem chained_append (hashOf : H → B → H) (start : H) (links others : List (Link B H)) :
    Chained hashOf start (links ++ others) ↔
      Chained hashOf start links ∧ Chained hashOf (head start links) others := by
  induction links generalizing start with
  | nil => simp [Chained, head]
  | cons link links ih => simp [Chained, head, ih, and_assoc]

theorem chained_singleton (hashOf : H → B → H) (start : H) (link : Link B H) :
    Chained hashOf start [link] ↔
      link.prev = start ∧ link.hash = hashOf link.prev link.body := by
  simp [Chained]

/-- Appending a link that is hashed from the current head keeps the chain. -/
theorem Chained.append_link {hashOf : H → B → H} {start : H} {links : List (Link B H)}
    (chained : Chained hashOf start links) (body : B) :
    Chained hashOf start (links ++
      [⟨head start links, body, hashOf (head start links) body⟩]) := by
  rw [chained_append, chained_singleton]
  exact ⟨chained, rfl, rfl⟩

/-- Every link is hashed from what it stores. -/
theorem Chained.hash_eq {hashOf : H → B → H} {start : H} {links : List (Link B H)}
    (chained : Chained hashOf start links) {link : Link B H} (mem : link ∈ links) :
    link.hash = hashOf link.prev link.body := by
  induction links generalizing start with
  | nil => simp at mem
  | cons first links ih =>
      rcases chained with ⟨-, hashed, rest⟩
      rcases List.mem_cons.1 mem with rfl | tail
      · exact hashed
      · exact ih rest tail

/-- Links of the two lists with equal hashes have equal predecessors and related
bodies. -/
def Separates (same : B → B → Prop) (links others : List (Link B H)) : Prop :=
  ∀ link ∈ links, ∀ other ∈ others, link.hash = other.hash →
    link.prev = other.prev ∧ same link.body other.body

/-- No link carries the starting hash. -/
def Avoids (start : H) (links : List (Link B H)) : Prop :=
  ∀ link ∈ links, link.hash ≠ start

theorem head_ne_start {start : H} {links : List (Link B H)} (avoids : Avoids start links)
    (nonempty : links ≠ []) : head start links ≠ start := by
  rcases List.eq_nil_or_concat links with rfl | ⟨init, last, rfl⟩
  · exact absurd rfl nonempty
  · rw [List.concat_eq_append] at avoids ⊢
    rw [head_append_singleton]
    exact avoids last (by simp)

/-- **The head commits to the history.** Two chains from one start with the same
head have related bodies position by position, and in particular equal lengths. -/
theorem bodies_related_of_head_eq {hashOf : H → B → H} {same : B → B → Prop} {start : H}
    {links others : List (Link B H)}
    (chained : Chained hashOf start links) (otherChained : Chained hashOf start others)
    (separates : Separates same links others)
    (avoids : Avoids start links) (otherAvoids : Avoids start others)
    (heads : head start links = head start others) :
    List.Forall₂ (fun link other => same link.body other.body) links others := by
  induction links using List.reverseRecOn generalizing others with
  | nil =>
      rcases others with _ | ⟨other, others⟩
      · exact .nil
      · exact absurd heads.symm (head_ne_start otherAvoids (by simp))
  | append_singleton init last ih =>
      rcases List.eq_nil_or_concat others with rfl | ⟨otherInit, otherLast, rfl⟩
      · exact absurd heads (head_ne_start avoids (by simp))
      · rw [List.concat_eq_append] at otherChained separates otherAvoids heads ⊢
        rw [head_append_singleton, head_append_singleton] at heads
        rcases separates last (by simp) otherLast (by simp) heads with ⟨prevEq, bodySame⟩
        rw [chained_append, chained_singleton] at chained otherChained
        have initHeads : head start init = head start otherInit := by
          rw [← chained.2.1, ← otherChained.2.1, prevEq]
        have initRelated := ih chained.1 otherChained.1
          (fun link mem other otherMem => separates link (List.mem_append_left _ mem)
            other (List.mem_append_left _ otherMem))
          (fun link mem => avoids link (List.mem_append_left _ mem))
          (fun link mem => otherAvoids link (List.mem_append_left _ mem)) initHeads
        exact List.rel_append initRelated (.cons bodySame .nil)

/-- When the bodies of a list are pairwise unrelated, no hash occurs twice. -/
theorem nodup_hash {same : B → B → Prop} {links : List (Link B H)}
    (separates : Separates same links links)
    (distinct : links.Pairwise fun link other => ¬same link.body other.body) :
    (links.map Link.hash).Nodup := by
  rw [List.Nodup, List.pairwise_map]
  apply List.Pairwise.imp_of_mem _ distinct
  intro link other mem otherMem unrelated equal
  exact unrelated (separates link mem other otherMem equal).2

end HashChain

import Mathlib

/-!
# Lineages

A lineage attaches nodes one after another, each to a root of its owner or to
a node of the same owner which was attached before.  Following parents from
an attached node never cycles: it passes nodes of one owner only and ends at
a root of that owner.
-/

namespace Eris.Foundation

variable {Node Owner : Type}

/-- A node, what it was attached to, and its owner. -/
structure Link (Node Owner : Type) where
  node : Node
  parent : Node
  owner : Owner

def Attached (links : List (Link Node Owner)) (node parent : Node) : Prop :=
  ∃ link ∈ links, link.node = node ∧ link.parent = parent

/-- A node belongs to an owner, as one of its roots or as attached. -/
def Belongs
    (root : Node → Option Owner) (links : List (Link Node Owner))
    (node : Node) (owner : Owner) : Prop :=
  root node = some owner ∨ ∃ link ∈ links, link.node = node ∧ link.owner = owner

/-- Links in the order in which their nodes were attached. -/
inductive Lineage (root : Node → Option Owner) :
    List (Link Node Owner) → Prop
  | nil : Lineage root []
  | attach {links : List (Link Node Owner)} {link : Link Node Owner}
      (earlier : Lineage root links)
      (noRoot : root link.node = none)
      (fresh : ∀ other ∈ links, other.node ≠ link.node)
      (belongs : Belongs root links link.parent link.owner) :
      Lineage root (links ++ [link])

variable
  {root : Node → Option Owner} {links more : List (Link Node Owner)}
  {link : Link Node Owner} {node parent ancestor : Node} {owner : Owner}

theorem Attached.weaken
    (attached : Attached links node parent) :
    Attached (links ++ more) node parent := by
  rcases attached with ⟨link, listed, isNode, isParent⟩
  exact ⟨link, List.mem_append_left _ listed, isNode, isParent⟩

theorem Belongs.weaken
    (belongs : Belongs root links node owner) :
    Belongs root (links ++ more) node owner := by
  rcases belongs with isRoot | ⟨link, listed, isNode, isOwner⟩
  · exact Or.inl isRoot
  · exact Or.inr ⟨link, List.mem_append_left _ listed, isNode, isOwner⟩

theorem attached_snoc :
    Attached (links ++ [link]) node parent ↔
      Attached links node parent ∨ link.node = node ∧ link.parent = parent := by
  simp [Attached, or_and_right, exists_or]

namespace Lineage

theorem node_no_root (lineage : Lineage root links) :
    ∀ link ∈ links, root link.node = none := by
  induction lineage with
  | nil => exact List.forall_mem_nil _
  | attach earlier noRoot fresh belongs ih =>
      intro link listed
      rcases List.mem_append.1 listed with before | last
      · exact ih link before
      · rw [List.mem_singleton.1 last]
        exact noRoot

theorem nodup (lineage : Lineage root links) :
    (links.map Link.node).Nodup := by
  induction lineage with
  | nil => exact List.nodup_nil
  | attach earlier noRoot fresh belongs ih =>
      rw [List.map_append, List.nodup_append]
      refine ⟨ih, List.nodup_singleton _, ?_⟩
      intro node listed other last
      rcases List.mem_map.1 listed with ⟨link, member, rfl⟩
      rw [List.map_singleton, List.mem_singleton] at last
      rw [last]
      exact fresh link member

theorem parent_belongs (lineage : Lineage root links) :
    ∀ link ∈ links, Belongs root links link.parent link.owner := by
  induction lineage with
  | nil => exact List.forall_mem_nil _
  | attach earlier noRoot fresh belongs ih =>
      intro link listed
      rcases List.mem_append.1 listed with before | last
      · exact (ih link before).weaken
      · rw [List.mem_singleton.1 last]
        exact belongs.weaken

theorem attached_unique (lineage : Lineage root links) :
    Relator.RightUnique (Attached links) := by
  rintro node first second
    ⟨link, listed, rfl, rfl⟩ ⟨other, otherListed, same, rfl⟩
  rw [List.inj_on_of_nodup_map lineage.nodup otherListed listed same]

theorem leads_to_root (lineage : Lineage root links) :
    ∀ link ∈ links, ∃ wallet, root wallet = some link.owner ∧
        Relation.TransGen (Attached links) link.node wallet := by
  induction lineage with
  | nil => exact List.forall_mem_nil _
  | @attach links last earlier noRoot fresh belongs ih =>
      have weaken : ∀ node ancestor,
            Relation.TransGen (Attached links) node ancestor →
              Relation.TransGen (Attached (links ++ [last])) node ancestor :=
        fun node ancestor path =>
          Relation.TransGen.mono
            (fun _ _ (attached : Attached links _ _) => attached.weaken)
            node ancestor path
      intro link listed
      rcases List.mem_append.1 listed with before | isLast
      · rcases ih link before with ⟨wallet, isRoot, path⟩
        exact ⟨wallet, isRoot, weaken _ _ path⟩
      · have first : Attached (links ++ [last]) last.node last.parent :=
          attached_snoc.2 (Or.inr ⟨rfl, rfl⟩)
        rw [List.mem_singleton.1 isLast]
        rcases belongs with isRoot | ⟨parent, member, isNode, isOwner⟩
        · exact ⟨last.parent, isRoot, Relation.TransGen.single first⟩
        · rcases ih parent member with
            ⟨wallet, isRoot, path⟩
          rw [isNode] at path
          rw [isOwner] at isRoot
          exact ⟨wallet, isRoot, Relation.TransGen.head first (weaken _ _ path)⟩

theorem acyclic (lineage : Lineage root links) (node : Node) :
    ¬ Relation.TransGen (Attached links) node node := by
  induction lineage generalizing node with
  | nil =>
      intro path
      rcases Relation.TransGen.head'_iff.1 path with
        ⟨next, ⟨link, listed, -⟩, -⟩
      cases listed
  | @attach links last earlier noRoot fresh belongs ih =>
      have noChild : ∀ child, ¬ Attached (links ++ [last]) child last.node := by
        intro child attached
        have unattached : ¬ Belongs root links last.node last.owner := by
          rintro (isRoot | ⟨link, listed, same, -⟩)
          · rw [noRoot] at isRoot
            cases isRoot
          · exact fresh link listed same
        rcases attached_snoc.1 attached with
          ⟨link, listed, -, isParent⟩ | ⟨-, isParent⟩
        · rcases earlier.parent_belongs link listed with
            isRoot | ⟨other, member, same, -⟩
          · rw [isParent, noRoot] at isRoot
            cases isRoot
          · exact fresh other member (same.trans isParent)
        · rw [isParent] at belongs
          exact unattached belongs
      have older : ∀ start finish, start ≠ last.node →
          Relation.TransGen (Attached (links ++ [last])) start finish →
            Relation.TransGen (Attached links) start finish ∧
              finish ≠ last.node := by
        intro start finish different path
        have kept : ∀ child parent, child ≠ last.node →
            Attached (links ++ [last]) child parent →
              Attached links child parent ∧ parent ≠ last.node := by
          intro child parent isOlder attached
          refine ⟨?_, ?_⟩
          · rcases attached_snoc.1 attached with before | ⟨same, -⟩
            · exact before
            · exact (isOlder same.symm).elim
          · rintro rfl
            exact noChild child attached
        induction path with
        | single attached =>
            rcases kept start _ different attached with ⟨before, isOlder⟩
            exact ⟨Relation.TransGen.single before, isOlder⟩
        | tail _ attached walked =>
            rcases kept _ _ walked.2 attached with ⟨before, isOlder⟩
            exact ⟨walked.1.tail before, isOlder⟩
      intro cycle
      by_cases same : node = last.node
      · rcases Relation.TransGen.tail'_iff.1 cycle with
          ⟨child, -, attached⟩
        rw [same] at attached
        exact noChild child attached
      · exact ih node (older node node same cycle).1

theorem walk_to_root
    (lineage : Lineage root links)
    {wallet : Node} (isRoot : root wallet = some owner)
    (leads : Relation.TransGen (Attached links) node wallet)
    (path : Relation.TransGen (Attached links) node ancestor) :
    Relation.ReflTransGen (Attached links) ancestor wallet := by
  rcases Relation.ReflTransGen.total_of_right_unique
    lineage.attached_unique path.to_reflTransGen
    leads.to_reflTransGen with
    forward | backward
  · exact forward
  · rcases Relation.ReflTransGen.cases_head_iff.1 backward with
      same | ⟨parent, ⟨link, listed, isNode, -⟩, -⟩
    · rw [same]
    · have noRoot := lineage.node_no_root link listed
      rw [isNode, isRoot] at noRoot
      cases noRoot

end Lineage

end Eris.Foundation

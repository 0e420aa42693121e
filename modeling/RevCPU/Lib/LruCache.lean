import Mathlib.Data.List.Nodup
import Mathlib.Logic.Function.Basic
namespace LruCache
/-! A least-recently-used cache: a hash map from keys to values, each with the node of its key in a
linked list kept in order of use. Nodes keep their identity while other nodes come and go, so a
node is a number that no later node of the same list takes again. -/

structure Chain (α : Type) where
  nodes : List (Nat × α)
  next : Nat
  below : ∀ node ∈ nodes, node.1 < next
  distinct : (nodes.map Prod.fst).Nodup

namespace Chain
variable {α : Type}

def empty : Chain α := ⟨[], 0, by simp, by simp⟩

def length (chain : Chain α) : Nat := chain.nodes.length

def pushFront (chain : Chain α) (item : α) : Chain α where
  nodes := (chain.next, item) :: chain.nodes
  next := chain.next + 1
  below := by
    intro node member
    rcases List.mem_cons.mp member with rfl | old
    · exact Nat.lt_succ_self _
    · exact Nat.lt_succ_of_lt (chain.below node old)
  distinct := by
    refine List.nodup_cons.mpr ⟨fun clash => ?_, chain.distinct⟩
    obtain ⟨node, old, same⟩ := List.mem_map.mp clash
    exact absurd (chain.below node old) (by omega)

def erase (chain : Chain α) (node : Nat) : Chain α where
  nodes := chain.nodes.filter fun other => other.1 ≠ node
  next := chain.next
  below := fun other member => chain.below other (List.mem_filter.mp member).1
  distinct := (List.filter_sublist.map Prod.fst).nodup chain.distinct

def popBack (chain : Chain α) : Chain α where
  nodes := chain.nodes.dropLast
  next := chain.next
  below := fun other member => chain.below other (List.dropLast_subset _ member)
  distinct := ((List.dropLast_sublist _).map Prod.fst).nodup chain.distinct

-- A node holds one item.
theorem item_unique (chain : Chain α) {node : Nat} {first second : α}
    (one : (node, first) ∈ chain.nodes) (two : (node, second) ∈ chain.nodes) : first = second := by
  have same := List.inj_on_of_nodup_map chain.distinct one two rfl
  exact congrArg Prod.snd same

theorem mem_erase (chain : Chain α) (node other : Nat) (item : α) :
    (other, item) ∈ (chain.erase node).nodes ↔ (other, item) ∈ chain.nodes ∧ other ≠ node := by
  simp [erase]

theorem mem_pushFront (chain : Chain α) (item other : α) (node : Nat) :
    (node, other) ∈ (chain.pushFront item).nodes ↔
      (node = chain.next ∧ other = item) ∨ (node, other) ∈ chain.nodes := by
  simp [pushFront]

theorem mem_popBack (chain : Chain α) {last : Nat × α} (back : chain.nodes.getLast? = some last)
    (node : Nat × α) : node ∈ chain.popBack.nodes ↔ node ∈ chain.nodes ∧ node ≠ last := by
  have rebuilt := List.dropLast_append_getLast? last back
  have distinct : chain.nodes.Nodup := List.Nodup.of_map Prod.fst chain.distinct
  rw [← rebuilt] at distinct ⊢
  have apart := List.nodup_append.mp distinct
  simp only [popBack, List.mem_append, List.mem_singleton]
  constructor
  · exact fun member => ⟨.inl member, apart.2.2 node member last (by simp)⟩
  · rintro ⟨member | same, differs⟩
    · exact member
    · exact absurd same differs

end Chain

/-- Every key of the table owns the list node it names, and every list node is named by its key. -/
structure Cache (κ ν : Type) where
  table : κ → Option (ν × Nat)
  queue : Chain κ
  linked : ∀ key value node, table key = some (value, node) → (node, key) ∈ queue.nodes
  owned : ∀ key node, (node, key) ∈ queue.nodes → ∃ value, table key = some (value, node)

namespace Cache
variable {κ ν : Type}

def empty : Cache κ ν := ⟨fun _ => none, Chain.empty, by simp, by simp [Chain.empty]⟩

def lookup (cache : Cache κ ν) (key : κ) : Option ν := (cache.table key).map Prod.fst

/-- The keys, most recently used first. -/
def keys (cache : Cache κ ν) : List κ := cache.queue.nodes.map Prod.snd

@[simp] theorem lookup_empty (key : κ) : lookup (empty : Cache κ ν) key = none := rfl

@[simp] theorem keys_empty : keys (empty : Cache κ ν) = [] := rfl

variable [DecidableEq κ]

/-- Moves the key's node to the front of the list and binds the key to the given value. -/
def refresh (cache : Cache κ ν) (key : κ) (node : Nat) (value : ν)
    (hit : (node, key) ∈ cache.queue.nodes) : Cache κ ν where
  table := Function.update cache.table key (some (value, cache.queue.next))
  queue := (cache.queue.erase node).pushFront key
  linked := by
    intro other bound place found
    rw [Chain.mem_pushFront, Chain.mem_erase]
    by_cases same : other = key
    · subst same
      rw [Function.update_self, Option.some.injEq, Prod.mk.injEq] at found
      exact .inl ⟨found.2.symm, rfl⟩
    · rw [Function.update_of_ne same] at found
      have member := cache.linked other bound place found
      refine .inr ⟨member, fun clash => same ?_⟩
      subst clash
      exact cache.queue.item_unique member hit
  owned := by
    intro other place member
    rw [Chain.mem_pushFront, Chain.mem_erase] at member
    rcases member with ⟨rfl, rfl⟩ | ⟨member, differs⟩
    · exact ⟨value, Function.update_self ..⟩
    · obtain ⟨bound, found⟩ := cache.owned other place member
      by_cases same : other = key
      · subst same
        obtain ⟨held, stored⟩ := cache.owned other node hit
        rw [stored, Option.some.injEq, Prod.mk.injEq] at found
        exact absurd found.2.symm differs
      · exact ⟨bound, by rw [Function.update_of_ne same, found]⟩

def insertFresh (cache : Cache κ ν) (key : κ) (value : ν) (miss : cache.table key = none) :
    Cache κ ν where
  table := Function.update cache.table key (some (value, cache.queue.next))
  queue := cache.queue.pushFront key
  linked := by
    intro other bound place found
    rw [Chain.mem_pushFront]
    by_cases same : other = key
    · subst same
      rw [Function.update_self, Option.some.injEq, Prod.mk.injEq] at found
      exact .inl ⟨found.2.symm, rfl⟩
    · rw [Function.update_of_ne same] at found
      exact .inr (cache.linked other bound place found)
  owned := by
    intro other place member
    rw [Chain.mem_pushFront] at member
    rcases member with ⟨rfl, rfl⟩ | member
    · exact ⟨value, Function.update_self ..⟩
    · obtain ⟨bound, found⟩ := cache.owned other place member
      have differs : other ≠ key := fun same => by simp [same, miss] at found
      exact ⟨bound, by rw [Function.update_of_ne differs, found]⟩

def evict (cache : Cache κ ν) (last : Nat × κ) (back : cache.queue.nodes.getLast? = some last) :
    Cache κ ν where
  table := Function.update cache.table last.2 none
  queue := cache.queue.popBack
  linked := by
    intro other bound place found
    by_cases same : other = last.2
    · rw [same, Function.update_self] at found
      exact absurd found (by simp)
    · rw [Function.update_of_ne same] at found
      refine (cache.queue.mem_popBack back _).mpr ⟨cache.linked other bound place found, ?_⟩
      exact fun clash => same (congrArg Prod.snd clash)
  owned := by
    intro other place member
    obtain ⟨member, differs⟩ := (cache.queue.mem_popBack back _).mp member
    obtain ⟨bound, found⟩ := cache.owned other place member
    have apart : other ≠ last.2 := by
      intro same
      have tail := List.mem_of_getLast? back
      obtain ⟨held, stored⟩ := cache.owned last.2 last.1 tail
      rw [same, stored, Option.some.injEq, Prod.mk.injEq] at found
      exact differs (Prod.ext found.2.symm same)
    exact ⟨bound, by rw [Function.update_of_ne apart, found]⟩

/-- A hit makes its key the most recently used one. -/
def search (cache : Cache κ ν) (key : κ) : Option ν × Cache κ ν :=
  match hit : cache.table key with
  | none => (none, cache)
  | some (value, node) => (some value, cache.refresh key node value (cache.linked key value node hit))

/-- Binds a key; a full cache first drops the least recently used key. There is none to drop when
the list is empty, which is the one way to fail. -/
def add (cache : Cache κ ν) (capacity : Nat) (key : κ) (value : ν) : Option (Cache κ ν) :=
  match hit : cache.table key with
  | some (old, node) => some (cache.refresh key node value (cache.linked key old node hit))
  | none =>
    if cache.queue.length = capacity then
      match back : cache.queue.nodes.getLast? with
      | none => none
      | some last =>
        some ((cache.evict last back).insertFresh key value
          (by simp [evict, Function.update_apply, hit]))
    else
      some (cache.insertFresh key value hit)

theorem lookup_refresh (cache : Cache κ ν) (key other : κ) (node : Nat) (value : ν)
    (hit : (node, key) ∈ cache.queue.nodes) :
    lookup (cache.refresh key node value hit) other =
      if other = key then some value else lookup cache other := by
  by_cases same : other = key <;> simp [lookup, refresh, same]

theorem lookup_insertFresh (cache : Cache κ ν) (key other : κ) (value : ν)
    (miss : cache.table key = none) :
    lookup (cache.insertFresh key value miss) other =
      if other = key then some value else lookup cache other := by
  by_cases same : other = key <;> simp [lookup, insertFresh, same]

theorem search_result (cache : Cache κ ν) (key : κ) :
    (cache.search key).1 = cache.lookup key := by
  unfold search lookup
  split <;> simp_all

-- A search only reorders the list.
theorem lookup_search (cache : Cache κ ν) (key other : κ) :
    lookup (cache.search key).2 other = lookup cache other := by
  unfold search
  split
  · rfl
  · rename_i value node hit
    rw [lookup_refresh]
    split
    · rename_i same
      simp [lookup, same, hit]
    · rfl

-- What is bound after an addition is the new pair or was bound before.
theorem lookup_add {cache after : Cache κ ν} {capacity : Nat} {key : κ} {value : ν}
    (added : cache.add capacity key value = some after) (other : κ) {bound : ν}
    (found : lookup after other = some bound) :
    (other = key ∧ bound = value) ∨ lookup cache other = some bound := by
  have split_found : ∀ before : Cache κ ν,
      (∀ held, lookup before other = some held → lookup cache other = some held) →
      (if other = key then some value else lookup before other) = some bound →
      (other = key ∧ bound = value) ∨ lookup cache other = some bound := by
    intro before keeps
    split
    · rename_i same
      exact fun this => .inl ⟨same, (Option.some.inj this).symm⟩
    · exact fun this => .inr (keeps bound this)
  unfold add at added
  split at added
  · cases added
    rw [lookup_refresh] at found
    exact split_found cache (fun _ => id) found
  · split at added
    · split at added
      · exact absurd added (by simp)
      · rename_i last back
        cases added
        rw [lookup_insertFresh] at found
        refine split_found _ (fun held kept => ?_) found
        by_cases victim : other = last.2
        · simp [lookup, evict, victim] at kept
        · simpa [lookup, evict, Function.update_apply, victim] using kept
    · cases added
      rw [lookup_insertFresh] at found
      exact split_found cache (fun _ => id) found

theorem add_succeeds (cache : Cache κ ν) {capacity : Nat} (positive : capacity ≠ 0) (key : κ)
    (value : ν) : ∃ after, cache.add capacity key value = some after := by
  unfold add
  split
  · exact ⟨_, rfl⟩
  · split
    · rename_i full
      split
      · rename_i back
        have vacant : cache.queue.length = 0 := by
          simp [Chain.length, List.getLast?_eq_none_iff.mp back]
        exact absurd (full.symm.trans vacant) positive
      · exact ⟨_, rfl⟩
    · exact ⟨_, rfl⟩

theorem add_empty_zero (key : κ) (value : ν) :
    (empty : Cache κ ν).add 0 key value = none := rfl

section Order
variable {cache after : Cache κ ν} {key : κ}

omit [DecidableEq κ] in
theorem mem_keys : key ∈ cache.keys ↔ ∃ value, cache.lookup key = some value := by
  constructor
  · intro member
    obtain ⟨⟨node, other⟩, held, rfl⟩ := List.mem_map.mp member
    obtain ⟨value, found⟩ := cache.owned other node held
    exact ⟨value, by simp [lookup, found]⟩
  · rintro ⟨value, found⟩
    obtain ⟨⟨bound, node⟩, stored, -⟩ := Option.map_eq_some_iff.mp found
    exact List.mem_map.mpr ⟨(node, key), cache.linked key bound node stored, rfl⟩

omit [DecidableEq κ] in
theorem not_mem_keys : key ∉ cache.keys ↔ cache.lookup key = none := by
  rw [mem_keys, ← Option.isSome_iff_exists, Option.not_isSome_iff_eq_none]

omit [DecidableEq κ] in
theorem node_unique {first second : Nat} (one : (first, key) ∈ cache.queue.nodes)
    (two : (second, key) ∈ cache.queue.nodes) : first = second := by
  obtain ⟨held, found⟩ := cache.owned key first one
  obtain ⟨other, again⟩ := cache.owned key second two
  rw [found, Option.some.injEq, Prod.mk.injEq] at again
  exact again.2

omit [DecidableEq κ] in
theorem keys_nodup (cache : Cache κ ν) : cache.keys.Nodup := by
  apply List.Nodup.map_on _ (List.Nodup.of_map Prod.fst cache.queue.distinct)
  rintro ⟨first, key⟩ one ⟨second, other⟩ two rfl
  rw [node_unique one two]

theorem keys_refresh (cache : Cache κ ν) (key : κ) (node : Nat) (value : ν)
    (hit : (node, key) ∈ cache.queue.nodes) :
    (cache.refresh key node value hit).keys = key :: cache.keys.filter fun other => other ≠ key := by
  simp only [keys, refresh, Chain.pushFront, Chain.erase, List.map_cons, List.filter_map]
  congr 2
  apply List.filter_congr
  rintro ⟨place, other⟩ member
  have same : place = node ↔ other = key := by
    constructor
    · rintro rfl
      exact cache.queue.item_unique member hit
    · rintro rfl
      exact node_unique member hit
  simp [same]

theorem keys_search (cache : Cache κ ν) (key : κ) :
    (cache.search key).2.keys = if key ∈ cache.keys then
      key :: cache.keys.filter fun other => other ≠ key else cache.keys := by
  unfold search
  split
  · rename_i miss
    rw [if_neg (not_mem_keys.mpr (by simp [lookup, miss]))]
  · rename_i value node hit
    rw [keys_refresh, if_pos (mem_keys.mpr ⟨value, by simp [lookup, hit]⟩)]

-- Only a full cache that misses the key gives up its last one.
theorem keys_add {capacity : Nat} {value : ν} (added : cache.add capacity key value = some after) :
    after.keys = key :: (if key ∈ cache.keys ∨ cache.keys.length ≠ capacity then cache.keys
      else cache.keys.dropLast).filter fun other => other ≠ key := by
  have unfiltered : ∀ kept : List κ, key ∉ kept → kept.filter (fun other => other ≠ key) = kept := by
    intro kept absent
    apply List.filter_eq_self.mpr
    intro other member
    simpa using fun same : other = key => absent (same ▸ member)
  unfold add at added
  split at added
  · rename_i old node hit
    cases added
    rw [keys_refresh, if_pos (.inl (mem_keys.mpr ⟨old, by simp [lookup, hit]⟩))]
  · rename_i miss
    have absent : key ∉ cache.keys := not_mem_keys.mpr (by simp [lookup, miss])
    have length : cache.queue.length = cache.keys.length := by simp [Chain.length, keys]
    split at added
    · rename_i full
      split at added
      · exact absurd added (by simp)
      · cases added
        rw [if_neg (by rw [← length]; simp [absent, full]),
          unfiltered _ fun member => absent (List.dropLast_subset _ member)]
        simp [keys, insertFresh, evict, Chain.pushFront, Chain.popBack, List.map_dropLast]
    · rename_i room
      cases added
      rw [if_pos (.inr (by rwa [← length])), unfiltered _ absent]
      simp [keys, insertFresh, Chain.pushFront]

/-- The keys after one of them, or one more, was used. -/
def used (capacity : Nat) (keys : List κ) (key : κ) : List κ :=
  key :: (if key ∈ keys ∨ keys.length ≠ capacity then keys else keys.dropLast).filter
    fun other => other ≠ key

theorem used_search (capacity : Nat) (member : key ∈ cache.keys) :
    (cache.search key).2.keys = used capacity cache.keys key := by
  rw [keys_search, if_pos member, used, if_pos (.inl member)]

theorem used_add {capacity : Nat} {value : ν} (added : cache.add capacity key value = some after) :
    after.keys = used capacity cache.keys key := by
  rw [keys_add added, used]

theorem length_filter_ne {kept : List κ} (member : key ∈ kept) :
    (kept.filter fun other => other ≠ key).length < kept.length :=
  List.length_filter_lt_length_iff_exists.mpr ⟨key, member, by simp⟩

theorem length_add {capacity : Nat} {value : ν} (added : cache.add capacity key value = some after)
    (bounded : cache.keys.length ≤ capacity) (positive : capacity ≠ 0) :
    after.keys.length ≤ capacity := by
  rw [keys_add added, List.length_cons]
  split
  · rename_i room
    rcases room with member | room
    · have shorter := length_filter_ne member
      omega
    · have shorter := List.length_filter_le (fun other => other ≠ key) cache.keys
      omega
  · rename_i full
    have shorter := List.length_filter_le (fun other => other ≠ key) cache.keys.dropLast
    rw [List.length_dropLast] at shorter
    omega

-- A cache without room and without keys has nothing to give up.
theorem add_vacant (vacant : cache.keys = []) (value : ν) : cache.add 0 key value = none := by
  have nodes : cache.queue.nodes = [] := by simpa [keys] using vacant
  have miss : cache.table key = none := by
    have absent : cache.lookup key = none := not_mem_keys.mp (by simp [vacant])
    simpa [lookup] using absent
  unfold add
  split
  · rename_i hit
    rw [miss] at hit
    exact absurd hit (by simp)
  · rw [if_pos (by simp [Chain.length, nodes])]
    split
    · rfl
    · rename_i back
      simp [nodes] at back

/-- The keys are listed from the latest to the earliest last use; `uses` is the history of uses,
newest first. -/
structure InOrder (uses keys : List κ) : Prop where
  used : ∀ key ∈ keys, key ∈ uses
  newest : keys.Pairwise fun newer older => uses.idxOf newer < uses.idxOf older

theorem inOrder_nil (uses : List κ) : InOrder uses [] := ⟨by simp, .nil⟩

theorem InOrder.sublist {uses keys fewer : List κ} (ordered : InOrder uses keys)
    (kept : fewer.Sublist keys) : InOrder uses fewer :=
  ⟨fun key member => ordered.used key (kept.subset member), ordered.newest.sublist kept⟩

theorem InOrder.use {uses keys : List κ} (ordered : InOrder uses keys) (key : κ) :
    InOrder (key :: uses) (key :: keys.filter fun other => other ≠ key) := by
  have kept := ordered.sublist (List.filter_sublist (p := fun other => other ≠ key))
  have others : ∀ other ∈ keys.filter (fun other => other ≠ key), key ≠ other := by
    intro other member same
    simp [same] at member
  have later : ∀ other, key ≠ other → (key :: uses).idxOf other = uses.idxOf other + 1 :=
    fun other differs => List.idxOf_cons_ne uses differs
  constructor
  · intro other member
    rcases List.mem_cons.mp member with rfl | old
    · exact List.mem_cons_self
    · exact List.mem_cons_of_mem _ (kept.used other old)
  · refine List.pairwise_cons.mpr ⟨fun other member => ?_, ?_⟩
    · rw [List.idxOf_cons_self, later other (others other member)]
      exact Nat.succ_pos _
    · refine kept.newest.imp_of_mem fun {newer older} one two earlier => ?_
      rw [later newer (others newer one), later older (others older two)]
      exact Nat.succ_lt_succ earlier

theorem InOrder.search {uses : List κ} (ordered : InOrder uses cache.keys) (key : κ) :
    InOrder (if key ∈ cache.keys then key :: uses else uses) (cache.search key).2.keys := by
  rw [keys_search]
  split
  · exact ordered.use key
  · exact ordered

theorem length_search (cache : Cache κ ν) (key : κ) :
    (cache.search key).2.keys.length ≤ cache.keys.length := by
  rw [keys_search]
  split
  · rename_i member
    have shorter := length_filter_ne member
    rw [List.length_cons]
    omega
  · exact Nat.le_refl _

theorem InOrder.add {capacity : Nat} {value : ν} {uses : List κ}
    (ordered : InOrder uses cache.keys) (added : cache.add capacity key value = some after) :
    InOrder (key :: uses) after.keys := by
  rw [keys_add added]
  split
  · exact ordered.use key
  · exact (ordered.sublist (List.dropLast_sublist _)).use key

-- Whatever an addition drops was used before everything that was cached with it.
theorem InOrder.victim {capacity : Nat} {value : ν} {uses : List κ}
    (ordered : InOrder uses cache.keys) (added : cache.add capacity key value = some after)
    {victim : κ} (cached : victim ∈ cache.keys) (dropped : victim ∉ after.keys) :
    ∀ other ∈ cache.keys, other ≠ victim → uses.idxOf other < uses.idxOf victim := by
  rw [keys_add added, List.mem_cons, not_or, List.mem_filter, not_and] at dropped
  obtain ⟨differs, gone⟩ := dropped
  split at gone
  · exact absurd (gone cached) (by simpa using differs)
  · have nonempty : cache.keys ≠ [] := List.ne_nil_of_mem cached
    have rebuilt := List.dropLast_append_getLast nonempty
    have isLast : victim = cache.keys.getLast nonempty := by
      rw [← rebuilt, List.mem_append, List.mem_singleton] at cached
      rcases cached with early | last
      · exact absurd (gone early) (by simpa using differs)
      · exact last
    have pairs := ordered.newest
    rw [← rebuilt, List.pairwise_append] at pairs
    intro other member apart
    rw [← rebuilt, List.mem_append, List.mem_singleton] at member
    rcases member with early | last
    · rw [isLast]
      exact pairs.2.2 other early _ (by simp)
    · exact absurd (last.trans isLast.symm) apart

end Order

end Cache
end LruCache

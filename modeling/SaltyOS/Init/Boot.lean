import Mathlib.Data.Fintype.Pigeonhole
import Mathlib.Data.List.Perm.Subperm
import Mathlib.Order.Monotone.Basic
import Mathlib.Order.WellFounded

/-!
# The order in which init starts the services

`build_deps` turns the names of the service definitions into a graph of dependencies, one mask of bits for
each service, and `topological_sort` lists the services by Kahn's algorithm. A service is listed exactly if
it is accessible along its dependencies, and as there are finitely many services this means that no cycle
is reachable from it.
-/

namespace SaltyOS.Init

open Function Relation

/-- `MAX_SERVICES`. -/
def maxServices : ℕ := 32

/-- The type of a service. A target only stands for the services before it. -/
inductive ServiceType where
  | simple
  | notify
  | target
  deriving DecidableEq

/-- The state of a service. -/
inductive ServiceState where
  | stopped
  | starting
  | running
  | failed
  | stopping

/-- The bytes of a name, as `name_bytes`, `after_name`, `before_name` and `role_bytes` return them. -/
abbrev Name := List UInt8

/-- The bytes of a literal. -/
def Name.ofString (s : String) : Name := s.toUTF8.toList

/-- The fields of a definition that the order depends on. -/
structure ServiceDef where
  name : Name
  svcType : ServiceType
  after : List Name
  before : List Name
  preProcmgr : Bool
  role : Name

/-- A registered service. -/
structure ServiceInstance where
  toDef : ServiceDef
  state : ServiceState

/-- The registered services, their graph and the order. The bit `j` of `adj i` is set if service `i`
depends on `j`. -/
structure ServiceManager where
  services : List ServiceInstance
  count_le : services.length ≤ maxServices
  adj : ℕ → BitVec 32
  bootOrder : List ℕ

/-! ## The graph -/

/-- `adj[i] |= 1 << j`. -/
def setBit (adj : ℕ → BitVec 32) (e : ℕ × ℕ) : ℕ → BitVec 32 :=
  update adj e.1 (adj e.1 ||| BitVec.twoPow 32 e.2)

/-- After a list of edges has been added, a bit is set if it was before or its edge is one of them. -/
theorem getLsbD_foldl_setBit (es : List (ℕ × ℕ)) (hes : ∀ e ∈ es, e.2 < 32) (adj : ℕ → BitVec 32)
    (i j : ℕ) :
  ((es.foldl setBit adj) i).getLsbD j = true ↔ (adj i).getLsbD j = true ∨ (i, j) ∈ es
  := by
  induction es generalizing adj with
  | nil => simp
  | cons e es ih =>
    rw [List.foldl_cons, ih fun e' he => hes e' (List.mem_cons_of_mem e he), List.mem_cons, ← or_assoc]
    refine or_congr_left ?_
    have he := hes e List.mem_cons_self
    rcases eq_or_ne i e.1 with rfl | hi
    · simp [setBit, BitVec.getLsbD_or, Prod.ext_iff, he, @eq_comm _ j]
    · simp [setBit, Prod.ext_iff, hi]

namespace ServiceManager

variable (m : ServiceManager)

/-- `find_dep_name`. -/
def findDepName (name : Name) : Option ℕ :=
  if name.isEmpty then none else m.services.findIdx? (·.toDef.name = name)

/-- The edges to a target that services depend on without naming it. -/
def implicitEdges (name : String) (needs : ServiceDef → ℕ → ℕ → Bool) : List (ℕ × ℕ) :=
  (m.findDepName (.ofString name)).toList.flatMap fun target =>
    (m.services.zipIdx.filter fun (s, i) => needs s.toDef i target).map (·.2, target)

/-- The edges in the order in which `build_deps` adds them, each from a service to one that it depends on. -/
def edges : List (ℕ × ℕ) :=
  m.services.zipIdx.flatMap (fun (s, i) =>
    (s.toDef.after.filterMap m.findDepName).map (i, ·) ++
      (s.toDef.before.filterMap m.findDepName).map (·, i)) ++
  m.implicitEdges "procmgr.target" (fun d _ _ =>
    !d.preProcmgr && d.svcType ≠ .target && d.name ≠ .ofString "procmgr") ++
  m.implicitEdges "rsrcsrv.target" (fun d i target =>
    i ≠ target && d.svcType ≠ .target && d.role ≠ .ofString "authority")

/-- `build_deps`, which starts from an empty graph. -/
def buildDeps : ServiceManager := { m with adj := m.edges.foldl setBit fun _ => 0 }

/-- The graph that `build_deps` makes: service `i` depends on service `j`. -/
def DependsOn (i j : ℕ) : Prop := (m.buildDeps.adj i).getLsbD j = true

variable {m}

/-- A name is found among the registered services. -/
theorem findDepName_lt {name : Name} {j : ℕ} (h : m.findDepName name = some j) :
  j < m.services.length
  := by
  unfold findDepName at h
  split at h
  · cases h
  · exact (List.findIdx?_eq_some_iff_getElem.1 h).1

theorem implicitEdges_lt {name : String} {needs : ServiceDef → ℕ → ℕ → Bool} {e : ℕ × ℕ}
    (h : e ∈ m.implicitEdges name needs) :
  e.1 < m.services.length ∧ e.2 < m.services.length
  := by
  simp only [implicitEdges, List.mem_flatMap, Option.mem_toList, List.mem_map, List.mem_filter] at h
  obtain ⟨j, hj, ⟨s, i⟩, ⟨hs, -⟩, rfl⟩ := h
  exact ⟨List.snd_lt_of_mem_zipIdx hs, findDepName_lt hj⟩

/-- An edge is between two registered services. -/
theorem edges_lt {e : ℕ × ℕ} (h : e ∈ m.edges) :
  e.1 < m.services.length ∧ e.2 < m.services.length
  := by
  simp only [edges, List.mem_append, List.mem_flatMap, List.mem_map, List.mem_filterMap] at h
  obtain (⟨⟨s, i⟩, hs, ⟨j, ⟨_, -, hj⟩, rfl⟩ | ⟨j, ⟨_, -, hj⟩, rfl⟩⟩ | h) | h := h
  · exact ⟨List.snd_lt_of_mem_zipIdx hs, findDepName_lt hj⟩
  · exact ⟨findDepName_lt hj, List.snd_lt_of_mem_zipIdx hs⟩
  · exact implicitEdges_lt h
  · exact implicitEdges_lt h

/-- The masks hold the edges. -/
theorem dependsOn_iff {i j : ℕ} :
  m.DependsOn i j ↔ (i, j) ∈ m.edges
  := by
  rw [DependsOn, buildDeps, getLsbD_foldl_setBit _ fun e he => (edges_lt he).2.trans_le m.count_le]
  simp

end ServiceManager

/-! ## Kahn's algorithm -/

/-- The local variables of `topological_sort`: the work copy of the masks, the number of dependencies that
are left, the part of the queue from `q_head` to `q_tail`, and the order. -/
structure Kahn where
  work : ℕ → BitVec 32
  inDegree : ℕ → ℕ
  queue : List ℕ
  order : List ℕ

namespace Kahn

/-- The loops before the queue is served. -/
def start (adj : ℕ → BitVec 32) (n : ℕ) : Kahn :=
  let inDegree i := (List.range n).countP (adj i).getLsbD
  ⟨adj, inDegree, (List.range n).filter (inDegree · = 0), []⟩

/-- The body of the loop over the services, for a node that was taken from the queue. -/
def release (node : ℕ) (s : Kahn) (i : ℕ) : Kahn :=
  if (s.work i).getLsbD node then
    { s with
      work := update s.work i (s.work i &&& ~~~BitVec.twoPow 32 node)
      inDegree := update s.inDegree i (s.inDegree i - 1)
      queue := if s.inDegree i - 1 = 0 then s.queue ++ [i] else s.queue }
  else s

/-- The loop that serves the queue. -/
def run (n : ℕ) : ℕ → Kahn → Kahn
  | 0, s => s
  | fuel + 1, s =>
    match s.queue with
    | [] => s
    | node :: rest =>
      run n fuel ((List.range n).foldl (release node)
        { s with queue := rest, order := s.order ++ [node] })

/-- What the loop over the first `k` services does. -/
theorem foldl_release (s : Kahn) (node k : ℕ) :
  (List.range k).foldl (release node) s =
    { s with
      work := fun i =>
        if i < k ∧ (s.work i).getLsbD node then s.work i &&& ~~~BitVec.twoPow 32 node else s.work i
      inDegree := fun i =>
        if i < k ∧ (s.work i).getLsbD node then s.inDegree i - 1 else s.inDegree i
      queue := s.queue ++
        (List.range k).filter fun i => (s.work i).getLsbD node ∧ s.inDegree i - 1 = 0 }
  := by
  induction k with
  | zero => simp
  | succ k ih =>
    rw [List.range_succ, List.foldl_append, ih, List.foldl_cons, List.foldl_nil, List.filter_append]
    have hlt (i : ℕ) : i < k + 1 ↔ i < k ∨ i = k := Nat.lt_succ_iff_lt_or_eq
    have hk (i : ℕ) : i = k → ¬ i < k := fun h => h ▸ lt_irrefl i
    by_cases hbit : (s.work k).getLsbD node
    · rw [release, if_pos (by simpa using hbit)]
      simp only [lt_irrefl, false_and, if_false, Kahn.mk.injEq, and_true]
      refine ⟨funext fun i => ?_, funext fun i => ?_, ?_⟩
      · rcases eq_or_ne i k with rfl | hi <;> simp_all
      · rcases eq_or_ne i k with rfl | hi <;> simp_all
      · split <;> simp_all
    · rw [release, if_neg (by simpa using hbit)]
      simp only [Kahn.mk.injEq, and_true]
      refine ⟨funext fun i => ?_, funext fun i => ?_, ?_⟩
      · rcases eq_or_ne i k with rfl | hi <;> simp_all
      · rcases eq_or_ne i k with rfl | hi <;> simp_all
      · simp_all

variable (Dep : ℕ → ℕ → Prop) (n : ℕ)

/-- What holds whenever the queue is looked at. The listed and the queued services are those without a
dependency left, and a listed service is accessible and stands after its dependencies. -/
structure Sorted (s : Kahn) : Prop where
  work : ∀ i j, (s.work i).getLsbD j = true ↔ Dep i j ∧ j ∉ s.order
  inDegree : ∀ i, s.inDegree i = (List.range n).countP (s.work i).getLsbD
  nodup : (s.order ++ s.queue).Nodup
  listed : ∀ i, i ∈ s.order ++ s.queue ↔ i < n ∧ s.inDegree i = 0
  ordered : ∀ i ∈ s.order, ∀ j, Dep i j → [j, i].Sublist s.order
  acc : ∀ i ∈ s.order, Acc (fun b a => Dep a b) i

/-- `adj_work[i] &= !(1 << node)`. -/
theorem getLsbD_clear (w : BitVec 32) (node j : ℕ) :
  (w &&& ~~~BitVec.twoPow 32 node).getLsbD j = (w.getLsbD j && j != node)
  := by
  by_cases hj : j < 32
  · rcases eq_or_ne node j with rfl | hne
    · simp [hj]
    · simp [hj, hne.symm]
  · simp [BitVec.getLsbD_of_ge _ _ (not_lt.1 hj)]

/-- Clearing the bit of one service takes one from the count. -/
theorem countP_clear {n node : ℕ} (hnode : node < n) {w : BitVec 32} (hw : w.getLsbD node = true) :
  (List.range n).countP (w &&& ~~~BitVec.twoPow 32 node).getLsbD =
    (List.range n).countP w.getLsbD - 1
  := by
  rw [List.countP_congr fun j _ => by rw [getLsbD_clear], ← List.countP_filter,
    ← List.nodup_range.erase_eq_filter, List.countP_erase]
  simp [hnode, hw]

variable {Dep n} {s : Kahn} (hdep : ∀ i j, Dep i j → i < n ∧ j < n)

include hdep

/-- The listed and the queued services are those whose dependencies are all listed. -/
theorem Sorted.mem_iff (h : Sorted Dep n s) (i : ℕ) :
  i ∈ s.order ++ s.queue ↔ i < n ∧ ∀ j, Dep i j → j ∈ s.order
  := by
  rw [h.listed, h.inDegree, List.countP_eq_zero]
  refine and_congr_right fun _ => forall_congr' fun j => ?_
  rw [h.work, List.mem_range, not_and, not_not]
  exact ⟨fun hj hd => hj (hdep i j hd).2 hd, fun hj _ => hj⟩

omit hdep in
/-- At first the services without a dependency are queued. -/
theorem Sorted.start {adj : ℕ → BitVec 32} (hadj : ∀ i j, (adj i).getLsbD j = true ↔ Dep i j) :
  Sorted Dep n (Kahn.start adj n)
  where
  work i j := by simp [Kahn.start, hadj]
  inDegree i := rfl
  nodup := List.nodup_range.filter _
  listed i := by simp [Kahn.start]
  ordered i hi := by simp [Kahn.start] at hi
  acc i hi := by simp [Kahn.start] at hi

omit hdep in
/-- No more services are listed and queued than there are. -/
theorem Sorted.subperm (h : Sorted Dep n s) :
  (s.order ++ s.queue).Subperm (List.range n)
  := List.subperm_of_subset h.nodup fun i hi => List.mem_range.2 ((h.listed i).1 hi).1

/-- One turn of the loop. -/
theorem Sorted.step (h : Sorted Dep n s) {node : ℕ} {rest : List ℕ} (hq : s.queue = node :: rest) :
  Sorted Dep n ((List.range n).foldl (release node)
    { s with queue := rest, order := s.order ++ [node] })
  := by
  obtain ⟨hlt, hdeps⟩ := (h.mem_iff hdep node).1 (by simp [hq])
  have hnd := h.nodup
  have hlisted := h.listed
  rw [hq, List.append_cons] at hnd hlisted
  have hnew : node ∉ s.order := fun hm =>
    (List.nodup_append.1 (List.nodup_append.1 hnd).1).2.2 _ hm _ (List.mem_singleton_self node) rfl
  have hbit (i : ℕ) : (s.work i).getLsbD node = true ↔ Dep i node := by simp [h.work, hnew]
  rw [foldl_release]
  refine ⟨fun i j => ?_, fun i => ?_, ?_, fun i => ?_, fun i hi j hj => ?_, fun i hi => ?_⟩
  · by_cases hi : Dep i node
    · simp [hbit, hi, hdep i node hi, getLsbD_clear, h.work, and_assoc, -BitVec.getLsbD_and]
    · simp [hbit, hi, h.work]
      rintro hd _ rfl
      exact hi hd
  · by_cases hi : Dep i node
    · simp only [hbit, hi, hdep i node hi, and_self, if_true, h.inDegree, countP_clear hlt ((hbit i).2 hi)]
    · simp [hbit, hi, h.inDegree]
  · rw [← List.append_assoc]
    refine hnd.append (List.nodup_range.filter _) fun i hi hi' => ?_
    rw [List.mem_filter, decide_eq_true_iff, hbit] at hi'
    rw [← List.append_cons, ← hq] at hi
    exact hnew (((h.mem_iff hdep i).1 hi).2 node hi'.2.1)
  · rw [← List.append_assoc, List.mem_append, hlisted]
    by_cases hi : Dep i node
    · simp [hbit, hi, hdep i node hi]
      omega
    · simp [hbit, hi]
  · rcases List.mem_append.1 hi with hi | hi
    · exact (h.ordered i hi j hj).trans (List.sublist_append_left _ _)
    · obtain rfl := List.mem_singleton.1 hi
      exact (List.singleton_sublist.2 (hdeps j hj)).append (.refl [i])
  · rcases List.mem_append.1 hi with hi | hi
    · exact h.acc i hi
    · obtain rfl := List.mem_singleton.1 hi
      exact .intro i fun j hj => h.acc j (hdeps j hj)

/-- With `n` turns the queue runs empty. -/
theorem Sorted.run (h : Sorted Dep n s) (fuel : ℕ) (hfuel : n ≤ s.order.length + fuel) :
  Sorted Dep n (s.run n fuel) ∧ (s.run n fuel).queue = []
  := by
  induction fuel generalizing s with
  | zero =>
    have hle := h.subperm.length_le
    rw [List.length_append, List.length_range] at hle
    exact ⟨h, List.length_eq_zero_iff.1 (show s.queue.length = 0 by omega)⟩
  | succ fuel ih =>
    rw [Kahn.run]
    split
    next hq => exact ⟨h, hq⟩
    next node rest hq =>
      refine ih (h.step hdep hq) ?_
      simp only [foldl_release, List.length_append, List.length_singleton]
      omega

/-- In a finite graph the accessible nodes are those from which no cycle is reachable. -/
theorem acc_iff_acyclic (i : ℕ) :
  Acc (fun b a => Dep a b) i ↔ ∀ j, ReflTransGen Dep i j → ¬ TransGen Dep j j
  := by
  refine ⟨fun hacc j hij hcycle => ?_, fun h => ?_⟩
  · induction hacc with
    | intro i _ ih =>
      obtain ⟨k, hik, hkj⟩ : ∃ k, Dep i k ∧ ReflTransGen Dep k j := by
        rcases hij.cases_head with rfl | hstep
        · exact TransGen.head'_iff.1 hcycle
        · exact hstep
      exact ih k hik hkj
  · -- A descending chain would meet one of the nodes twice.
    by_contra hacc
    obtain ⟨f, rfl, hf⟩ := not_acc_iff_exists_descending_chain.1 hacc
    obtain ⟨a, b, hne, hab⟩ := Finite.exists_ne_map_eq_of_infinite fun k : ℕ =>
      (⟨f k, (hdep _ _ (hf k)).1⟩ : Fin n)
    wlog hlt : a < b generalizing a b
    · exact this b a hne.symm hab.symm (by omega)
    refine h (f a) (Nat.rel_of_forall_rel_succ_of_le _ (fun k => .single (hf k)) a.zero_le) ?_
    have hcycle := Nat.rel_of_forall_rel_succ_of_lt (TransGen Dep) (fun k => .single (hf k)) hlt
    rwa [← Fin.mk.inj hab] at hcycle

/-- When the queue is empty, the listed nodes are those from which no cycle is reachable. -/
theorem Sorted.mem_order (h : Sorted Dep n s) (hq : s.queue = []) (i : ℕ) :
  i ∈ s.order ↔ i < n ∧ ∀ j, ReflTransGen Dep i j → ¬ TransGen Dep j j
  := by
  have hmem := h.mem_iff hdep
  rw [hq, List.append_nil] at hmem
  rw [← acc_iff_acyclic hdep]
  refine ⟨fun hi => ⟨((hmem i).1 hi).1, h.acc i hi⟩, ?_⟩
  rintro ⟨hi, hacc⟩
  induction hacc with
  | intro i _ ih => exact (hmem i).2 ⟨hi, fun j hj => ih j hj (hdep i j hj).2⟩

end Kahn

namespace ServiceManager

variable (m : ServiceManager)

/-- `topological_sort` up to the end of its loop. -/
def kahn : Kahn :=
  (Kahn.start m.adj m.services.length).run m.services.length m.services.length

/-- The result says whether all services were sorted. If not, the others are marked as failed. -/
def topologicalSort : Bool × ServiceManager :=
  let order := m.kahn.order
  if order.length ≠ m.services.length then
    (false, { m with
      bootOrder := order
      services := m.services.mapIdx fun i s => if i ∈ order then s else { s with state := .failed }
      count_le := by simpa using m.count_le })
  else (true, { m with bootOrder := order })

end ServiceManager

end SaltyOS.Init

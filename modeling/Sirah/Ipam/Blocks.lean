import Sirah.Ipam.Manager

/-!
# The nodes' pod blocks

What the operations do to the nodes' blocks `[node_cidr_start, node_cidr_end]`, seen as a list of named
ranges of addresses (`blocks`). A new node's block is number `node_count`, counted from what
`parse_cidr` takes for the cluster's network address; a node that leaves shifts the array and decrements
`node_count`, so a number can be given out again, and nothing bounds it by the size of the cluster
range.

**`blocks_disjoint_iff`**: along a run, blocks of different nodes are disjoint and inside the cluster
CIDR **iff** every registration of a new name finds block number `node_count` inside the cluster CIDR
and not in use.
-/

namespace Sirah.Ipam

open Inet Runs

/-- A node's block: its first and last address. -/
structure Block where
  name : CString
  first : Nat
  last : Nat
  deriving DecidableEq, Repr

/-- The block of a node. -/
def Node.block (n : Node) : Block := ⟨n.nodeName, addr n.nodeCidrStart, addr n.nodeCidrEnd⟩

/-- The blocks, in the order of the array. -/
def blocks (m : Manager) : List Block := m.nodes.map Node.block

/-- The whole block lies inside the range. -/
def Block.Inside (b : Block) (c : Cidr) : Prop := c.first ≤ b.first ∧ b.first ≤ b.last ∧ b.last ≤ c.last

/-- No address is in both. -/
def Block.Apart (b c : Block) : Prop := b.last < c.first ∨ c.last < b.first

/-- **The law**: blocks of different nodes are disjoint, and every block is inside the cluster CIDR. -/
structure DisjointBlocks (cluster : Cidr) (m : Manager) : Prop where
  apart : ∀ b ∈ blocks m, ∀ c ∈ blocks m, b.name ≠ c.name → b.Apart c
  inside : ∀ b ∈ blocks m, b.Inside cluster

/-- The first address of block number `node_count`, in 32 bits. -/
def nextBlock (cluster : Cidr) (m : Manager) : Nat :=
  (addr cluster.start + 256 * m.nodes.length) % 2 ^ 32

/-- A new name finds block number `node_count` inside the cluster CIDR and not in use. -/
def FreshBlock (cluster : Cidr) (m : Manager) : Op → Prop
  | .registerNode name => (∀ n ∈ m.nodes, n.nodeName ≠ name) →
      cluster.first ≤ nextBlock cluster m ∧ nextBlock cluster m + 255 ≤ cluster.last ∧
        ∀ n ∈ m.nodes, addr n.nodeCidrStart ≠ nextBlock cluster m
  | _ => True

/-! ## The operations on blocks -/

theorem toNat_nodeIp (m : Manager) :
    (nodeIp m).toNat = (addr m.clusterStart + 256 * m.nodes.length) % 2 ^ 32 := by
  unfold nodeIp addr
  rw [UInt32.toNat_add, UInt32.toNat_shiftLeft, UInt32.toNat_ofNat', Nat.shiftLeft_eq,
    show (8 : UInt32).toNat % 32 = 8 from rfl]
  omega

theorem newNode_block (m : Manager) (name : CString) :
    (newNode m name).block =
      ⟨name, (addr m.clusterStart + 256 * m.nodes.length) % 2 ^ 32,
        (addr m.clusterStart + 256 * m.nodes.length + 255) % 2 ^ 32⟩ := by
  have hlast : (nodeIp m + 255).toNat = ((nodeIp m).toNat + 255) % 2 ^ 32 := UInt32.toNat_add _ _
  simp only [newNode, Node.block, addr_htonl, hlast, toNat_nodeIp, Nat.mod_add_mod]

theorem assign_blocks (ip : UInt32) (name : CString) (ns : List Node) :
    (assign ip name ns).map Node.block = ns.map Node.block := by
  induction ns with
  | nil => rfl
  | cons n ns ih =>
    unfold assign
    split
    · rfl
    · rw [List.map_cons, List.map_cons, ih]

theorem withdraw_blocks (ip : UInt32) (ns : List Node) :
    (withdraw ip ns).map Node.block = ns.map Node.block := by
  induction ns with
  | nil => rfl
  | cons n ns ih =>
    unfold withdraw
    split
    · rfl
    · rw [List.map_cons, List.map_cons, ih]

/-- What an operation can do to the blocks: a new name gets a new block, and everything else leaves
some of the blocks there were. -/
theorem step_blocks (m : Manager) (op : Op) :
    (∃ name, op = .registerNode name ∧ (∀ n ∈ m.nodes, n.nodeName ≠ name) ∧
        (step m op).nodes = m.nodes ++ [newNode m name]) ∨
      ((∀ name, op = .registerNode name → ∃ n ∈ m.nodes, n.nodeName = name) ∧
        (blocks (step m op)).Sublist (blocks m)) := by
  cases op with
  | registerNode name =>
    rcases registerNode_cases m name with ⟨hold, hm⟩ | ⟨hnew, hm⟩
    · refine .inr ⟨fun _ h => Op.registerNode.inj h ▸ hold, ?_⟩
      rw [step, hm]
    · exact .inl ⟨name, rfl, hnew, by rw [step, hm]⟩
  | unregisterNode name =>
    refine .inr ⟨fun _ h => Op.noConfusion h, ?_⟩
    rw [step, unregisterNode_nodes]
    exact List.eraseP_sublist.map _
  | allocatePodIp name =>
    refine .inr ⟨fun _ h => Op.noConfusion h, ?_⟩
    rcases allocatePodIp_cases m name with hm | ⟨_, _, _, _, hm⟩
    · rw [step, hm]
    · rw [step, hm, blocks, assign_blocks, blocks]
  | releasePodIp ip =>
    refine .inr ⟨fun _ h => Op.noConfusion h, ?_⟩
    rw [step, releasePodIp, blocks, withdraw_blocks, blocks]
  | allocateServiceIp =>
    refine .inr ⟨fun _ h => Op.noConfusion h, ?_⟩
    rcases allocateServiceIp_cases m with hm | ⟨_, _, hm⟩
    · rw [step, hm]
    · rw [step, hm]
      exact List.Sublist.refl _
  | releaseServiceIp ip => exact .inr ⟨fun _ h => Op.noConfusion h, List.Sublist.refl _⟩

/-! ## The law along a run -/

/-- What every run keeps: a block is 256 consecutive addresses (in 32 bits) at a multiple of 256 from
the start of the cluster range. -/
structure BlockInv (cluster : Cidr) (m : Manager) : Prop where
  start : m.clusterStart = cluster.start
  shape : ∀ b ∈ blocks m, b.first % 256 = addr cluster.start % 256 ∧
    b.last = (b.first + 255) % 2 ^ 32

theorem blocks_create (clusterCidr serviceCidr : CString) :
    blocks (managerIgnoringPrefix clusterCidr serviceCidr) = [] := rfl

theorem blockInv_create (cluster service : Cidr) :
    BlockInv cluster (managerIgnoringPrefix cluster.text service.text) := by
  refine ⟨?_, fun b hb => ?_⟩
  · rw [managerIgnoringPrefix, managerOfRanges, cluster.parseCidr_text]
  · rw [blocks_create] at hb
    exact absurd hb List.not_mem_nil

theorem disjointBlocks_create (cluster service : Cidr) :
    DisjointBlocks cluster (managerIgnoringPrefix cluster.text service.text) := by
  refine ⟨?_, ?_⟩ <;> rw [blocks_create] <;> exact fun b hb => absurd hb List.not_mem_nil

theorem blockInv_step {cluster : Cidr} {m : Manager} (h : BlockInv cluster m) (op : Op) :
    BlockInv cluster (step m op) := by
  have hstart := (step_ranges m op).1
  obtain ⟨name, -, -, hnodes⟩ | ⟨-, hsub⟩ := step_blocks m op
  · refine ⟨hstart.trans h.start, fun b hb => ?_⟩
    rw [blocks, hnodes, List.map_append, List.mem_append] at hb
    rcases hb with hb | hb
    · exact h.shape b hb
    · obtain rfl := List.mem_singleton.mp hb
      rw [newNode_block, h.start]
      simp only
      omega
  · exact ⟨hstart.trans h.start, fun b hb => h.shape b (hsub.subset hb)⟩

/-- Two blocks of one grid, each of them inside the range, are apart unless they are one block. -/
theorem apart_iff {cluster : Cidr} {b c : Block} (hb : b.Inside cluster) (hc : c.Inside cluster)
    (hsb : b.last = (b.first + 255) % 2 ^ 32) (hsc : c.last = (c.first + 255) % 2 ^ 32)
    (hgrid : b.first % 256 = c.first % 256) : b.Apart c ↔ b.first ≠ c.first := by
  have hlt := cluster.last_lt
  obtain ⟨-, hb1, hb2⟩ := hb
  obtain ⟨-, hc1, hc2⟩ := hc
  unfold Block.Apart
  omega

/-- A block inside the cluster and apart from the others is added to them. -/
theorem DisjointBlocks.append {cluster : Cidr} {m m' : Manager} {new : Block} (h : DisjointBlocks cluster m)
    (hblocks : blocks m' = blocks m ++ [new]) (hin : new.Inside cluster)
    (hap : ∀ b ∈ blocks m, b.Apart new) : DisjointBlocks cluster m' := by
  refine ⟨fun b hb c hc hbc => ?_, fun b hb => ?_⟩
  · rw [hblocks, List.mem_append, List.mem_singleton] at hb hc
    rcases hb with hb | rfl <;> rcases hc with hc | rfl
    · exact h.apart b hb c hc hbc
    · exact hap b hb
    · exact (hap c hc).symm
    · exact absurd rfl hbc
  · rw [hblocks, List.mem_append, List.mem_singleton] at hb
    rcases hb with hb | rfl
    · exact h.inside b hb
    · exact hin

/-- The step law. -/
theorem disjointBlocks_step {cluster : Cidr} {m : Manager} (hI : BlockInv cluster m)
    (h : DisjointBlocks cluster m) (op : Op) :
    DisjointBlocks cluster (step m op) ↔ FreshBlock cluster m op := by
  obtain ⟨name, rfl, hnew, hnodes⟩ | ⟨hold, hsub⟩ := step_blocks m op
  · have hblocks : blocks (step m (.registerNode name)) = blocks m ++ [(newNode m name).block] := by
      simp only [blocks, hnodes, List.map_append, List.map_cons, List.map_nil]
    have hb0 : (newNode m name).block = ⟨name, nextBlock cluster m, (nextBlock cluster m + 255) % 2 ^ 32⟩ := by
      rw [newNode_block, hI.start, nextBlock, Nat.mod_add_mod]
    have hlt := cluster.last_lt
    have hgrid : ∀ b ∈ blocks m, b.first % 256 = nextBlock cluster m % 256 := by
      intro b hb
      rw [(hI.shape b hb).1, nextBlock]
      omega
    constructor
    · intro hd _
      have hin := hd.inside _ (hblocks ▸ List.mem_append_right _ (List.mem_singleton_self _))
      rw [hb0] at hin
      refine ⟨hin.1, ?_, fun n hn heq => ?_⟩
      · obtain ⟨-, h1, h2⟩ := hin
        simp only at h1 h2
        omega
      · have hmem : n.block ∈ blocks m := List.mem_map_of_mem hn
        have hap := hd.apart n.block (hblocks ▸ List.mem_append_left _ hmem) _
          (hblocks ▸ List.mem_append_right _ (List.mem_singleton_self _))
          (by rw [hb0]; exact hnew n hn)
        rw [hb0] at hap
        exact (apart_iff (h.inside _ hmem) hin (hI.shape _ hmem).2 rfl (hgrid _ hmem)).mp hap heq
    · intro hf
      obtain ⟨hlo, hhi, hne⟩ := hf hnew
      have hin : (newNode m name).block.Inside cluster := by
        rw [hb0]
        refine ⟨hlo, ?_, ?_⟩ <;> simp only <;> omega
      have hap : ∀ b ∈ blocks m, b.Apart (newNode m name).block := by
        intro b hb
        obtain ⟨n, hn, rfl⟩ := List.mem_map.mp hb
        rw [hb0] at hin ⊢
        exact (apart_iff (h.inside _ hb) hin (hI.shape _ hb).2 rfl (hgrid _ hb)).mpr (hne n hn)
      exact h.append hblocks hin hap
  · refine iff_of_true ⟨fun b hb c hc => h.apart b (hsub.subset hb) c (hsub.subset hc),
      fun b hb => h.inside b (hsub.subset hb)⟩ ?_
    cases op with
    | registerNode name =>
      intro hnew
      obtain ⟨n, hn, hname⟩ := hold name rfl
      exact absurd hname (hnew n hn)
    | _ => trivial

/-- **Disjoint blocks, exactly.** For all well-formed ranges and every sequence of operations, as if the prefix
output were ignored. -/
theorem blocks_disjoint_iff (cluster service : Cidr) (ops : List Op) :
    AllStates step (DisjointBlocks cluster) (managerIgnoringPrefix cluster.text service.text) ops ↔
      AllSteps step (FreshBlock cluster) (managerIgnoringPrefix cluster.text service.text) ops :=
  allStates_iff_allSteps (I := BlockInv cluster) (fun _ op hI _ => blockInv_step hI op)
    (fun _ op hI _ h => disjointBlocks_step hI h op) (blockInv_create cluster service)
    (disjointBlocks_create cluster service) allSteps_true

/-! ## A block given out twice -/

/-- `10.244.0.0/16` and `10.96.0.0/12`. -/
def podRange : Cidr := ⟨0x0000F40A, 16, by decide, by decide⟩
def serviceRange : Cidr := ⟨0x0000600A, 12, by decide, by decide⟩

/-- **One block for two nodes.** `a` and `b` join, `a` leaves, `c` joins: `node_count` is 1 again, and
`c` gets the block of `b`. -/
theorem rejoin_reuses_block :
    ¬ DisjointBlocks podRange (run step (managerIgnoringPrefix podRange.text serviceRange.text)
      [.registerNode "a", .registerNode "b", .unregisterNode "a", .registerNode "c"]) := by
  intro h
  have hb : blocks (run step (managerIgnoringPrefix podRange.text serviceRange.text)
      [.registerNode "a", .registerNode "b", .unregisterNode "a", .registerNode "c"]) =
      [⟨"b", 256, 511⟩, ⟨"c", 256, 511⟩] := by decide +kernel
  have hap := h.apart ⟨"b", 256, 511⟩ (by rw [hb]; simp) ⟨"c", 256, 511⟩ (by rw [hb]; simp) (by decide)
  rcases hap with hap | hap <;> exact absurd hap (by decide)

end Sirah.Ipam

import LedgerNode.Page.Content
import Mathlib.Data.List.Forall2
import Mathlib.Data.List.Nodup

/-!
# Neighbours on the diagnostics page

The rows of the page are made from the neighbours one by one and then put into the order of the
addresses at which the neighbours show their pages. That order does not depend on anything else in
a row, so that the neighbours could as well be put in order first and made into rows afterwards:
each row is that of one neighbour as a whole.

- `Text.IsHexNumeral`: the hexadecimal spelling of a number.
- `filter_mergeSort`: sorting does not move elements past each other that may stand in either
  order.
- `Page.Row.Shows`: what a row says of its neighbour.
- `Page.rows_of_neighbors`: the rows of a page, and the pages that are the same.
-/

namespace LedgerNode

/-! ## Hexadecimal spelling -/

namespace Text

/-- The hexadecimal digits in ascending order. -/
def hexDigits : List Char := "0123456789abcdef".toList

/-- The number that hexadecimal digits denote, the first of them being the highest. -/
def hexValue (digits : List Char) : Nat :=
  digits.foldl (fun n c => 16 * n + hexDigits.idxOf c) 0

/-- Lowercase hexadecimal digits that denote a number, without leading zeros. -/
structure IsHexNumeral (n : Nat) (digits : List Char) : Prop where
  digits_mem : ∀ c ∈ digits, c ∈ hexDigits
  value_eq : hexValue digits = n
  eq_of_zero : n = 0 → digits = ['0']
  head?_ne : 0 < n → digits.head? ≠ some '0'

theorem hexValue_append_singleton (digits : List Char) (c : Char) :
    hexValue (digits ++ [c]) = 16 * hexValue digits + hexDigits.idxOf c := by
  simp [hexValue]

theorem digitChar_spec : ∀ n < 16, Nat.digitChar n ∈ hexDigits ∧
    hexDigits.idxOf (Nat.digitChar n) = n ∧ (0 < n → Nat.digitChar n ≠ '0') := by
  decide

theorem isHexNumeral_toDigits (n : Nat) : IsHexNumeral n (Nat.toDigits 16 n) := by
  induction n using Nat.strongRecOn with
  | ind n ih =>
    rcases Nat.lt_or_ge n 16 with hlt | hge
    · obtain ⟨hmem, hvalue, hne⟩ := digitChar_spec n hlt
      rw [Nat.toDigits_of_lt_base hlt]
      refine ⟨List.forall_mem_singleton.mpr hmem, ?_, ?_, ?_⟩
      · simpa [hexValue] using hvalue
      · rintro rfl
        rfl
      · simpa using hne
    · -- the last digit is behind the numeral of the other digits
      have hpos : 0 < n / 16 := by omega
      have hfront := ih (n / 16) (by omega)
      obtain ⟨hmem, hvalue, -⟩ := digitChar_spec (n % 16) (by omega)
      rw [Nat.toDigits_of_base_le (by decide) hge]
      refine ⟨?_, ?_, fun hzero => absurd hzero (by omega), fun _ => ?_⟩
      · rw [List.forall_mem_append]
        exact ⟨hfront.digits_mem, List.forall_mem_singleton.mpr hmem⟩
      · rw [hexValue_append_singleton, hfront.value_eq, hvalue, Nat.div_add_mod]
      · rw [List.head?_append_of_ne_nil _ Nat.toDigits_ne_nil]
        exact hfront.head?_ne hpos

end Text

/-! ## Stable sorting -/

/-- Elements that may stand in either order keep theirs. -/
theorem filter_mergeSort {α : Type} {le : α → α → Bool} {p : α → Bool}
    (trans : ∀ a b c, le a b → le b c → le a c) (total : ∀ a b, le a b || le b a)
    (h : ∀ a b, p a → p b → le a b) (as : List α) :
    (as.mergeSort le).filter p = as.filter p := by
  have hordered : (as.filter p).Pairwise fun a b => le a b :=
    List.pairwise_of_forall_mem_list fun a ha b hb =>
      h a b (List.mem_filter.mp ha).2 (List.mem_filter.mp hb).2
  have hsublist : List.Sublist (as.filter p) (as.mergeSort le) :=
    List.sublist_mergeSort trans total hordered List.filter_sublist
  have hfilter := hsublist.filter p
  rw [List.filter_filter] at hfilter
  simp only [Bool.and_self] at hfilter
  exact (hfilter.eq_of_length ((List.mergeSort_perm as le).filter p).length_eq.symm).symm

/-! ## The order of neighbours -/

/-- The address at which a neighbour shows its page. -/
def Neighbor.infoAddress (n : Neighbor) : String :=
  n.address ++ ":" ++ Text.numeral n.infoPort.toNat

/-- Whether a neighbour may stand before another. -/
def Neighbor.precedes (a b : Neighbor) : Bool :=
  Bytes.ofText a.infoAddress ≤ Bytes.ofText b.infoAddress

namespace Neighbor

theorem precedes_iff {a b : Neighbor} :
    a.precedes b = true ↔ Bytes.ofText a.infoAddress ≤ Bytes.ofText b.infoAddress := by
  rw [precedes, decide_eq_true_iff]

theorem precedes_trans (a b c : Neighbor) (h : a.precedes b) (k : b.precedes c) : a.precedes c := by
  rw [precedes_iff] at h k ⊢
  exact List.le_trans h k

theorem precedes_total (a b : Neighbor) : a.precedes b || b.precedes a := by
  rw [Bool.or_eq_true, precedes_iff, precedes_iff]
  exact List.le_total _ _

/-- Neighbours that may stand in either order have one address. -/
theorem infoAddress_eq {a b : Neighbor} (h : a.precedes b) (k : b.precedes a) :
    a.infoAddress = b.infoAddress :=
  Bytes.ofText_inj (List.le_antisymm (precedes_iff.mp h) (precedes_iff.mp k))

/-- Neighbours in the order of the page. -/
def ordered (ns : List Neighbor) : List Neighbor :=
  ns.mergeSort precedes

theorem ordered_perm (ns : List Neighbor) : (ordered ns).Perm ns :=
  List.mergeSort_perm ns precedes

theorem pairwise_ordered (ns : List Neighbor) :
    (ordered ns).Pairwise fun a b => a.precedes b :=
  List.pairwise_mergeSort precedes_trans precedes_total ns

theorem filter_ordered (address : String) (ns : List Neighbor) :
    (ordered ns).filter (·.infoAddress = address) = ns.filter (·.infoAddress = address) := by
  refine filter_mergeSort precedes_trans precedes_total (fun a b ha hb => ?_) ns
  rw [decide_eq_true_iff] at ha hb
  rw [precedes_iff, ha, hb]
  exact List.le_refl _

/-- The order of neighbours with different addresses does not depend on how they are listed. -/
theorem ordered_eq_of_perm {ms ns : List Neighbor} (h : ms.Perm ns)
    (hdistinct : (ns.map infoAddress).Nodup) : ordered ms = ordered ns := by
  have hperm : (ordered ms).Perm (ordered ns) :=
    ((ordered_perm ms).trans h).trans (ordered_perm ns).symm
  refine List.Perm.eq_of_pairwise (fun a b ha hb hab hba => ?_) (pairwise_ordered ms)
    (pairwise_ordered ns) hperm
  have hmem : a ∈ ns := (ordered_perm ns).mem_iff.mp (hperm.mem_iff.mp ha)
  exact List.inj_on_of_nodup_map hdistinct hmem ((ordered_perm ns).mem_iff.mp hb)
    (infoAddress_eq hab hba)

end Neighbor

/-! ## Rows -/

namespace Page

/-- What a row says of the neighbour that it is made from, under what is known of the chain. -/
structure Row.Shows (ledger : LedgerView) (n : Neighbor) (row : Row) : Prop where
  id_eq : ∃ digits, Text.IsHexNumeral n.id.toNat digits ∧ row.id = "0x" ++ String.ofList digits
  label_eq : row.role.label =
    if n.publicKey ∈ ledger.bookkeepers then "Verify Node" else "Service Node"
  address_eq : row.address = n.address
  infoAddress_eq : row.infoAddress = n.infoAddress
  infoPort_eq : row.infoPort = n.infoPort
  isInfoOpen_eq : row.isInfoOpen = n.isInfoOpen

theorem exists_idText_eq (id : UInt64) :
    ∃ digits, Text.IsHexNumeral id.toNat digits ∧ idText id = "0x" ++ String.ofList digits :=
  ⟨_, Text.isHexNumeral_toDigits id.toNat, rfl⟩

theorem label_role (ledger : LedgerView) (publicKey : Bytes) :
    (ledger.role publicKey).label =
      if publicKey ∈ ledger.bookkeepers then "Verify Node" else "Service Node" := by
  unfold LedgerView.role
  split <;> rfl

theorem Row.shows_ofNeighbor (ledger : LedgerView) (n : Neighbor) :
    Row.Shows ledger n (Row.ofNeighbor ledger n) where
  id_eq := exists_idText_eq n.id
  label_eq := label_role ledger n.publicKey
  address_eq := rfl
  infoAddress_eq := rfl
  infoPort_eq := rfl
  isInfoOpen_eq := rfl

/-- The rows are those of the neighbours in their order. -/
theorem rows_collect (config : Config) (node : NodeView) (ledger : LedgerView) :
    (collect config node ledger).rows =
      (Neighbor.ordered node.neighbors).map (Row.ofNeighbor ledger) := by
  have hmap : (Neighbor.ordered node.neighbors).map (Row.ofNeighbor ledger) =
      (node.neighbors.map (Row.ofNeighbor ledger)).mergeSort Row.precedes :=
    List.map_mergeSort fun _ _ _ _ => rfl
  exact hmap.symm

/-- The rows of a page are those of its node's neighbours, each with all that it says of one of
them. They ascend by the bytes of the addresses at which the neighbours show their pages, and those
of one address are in the order in which the node lists them. The page counts them, and gives the
node its role as it does with neighbours. A node that is the same but for the order in which it
lists its neighbours, no two of which have one address, has the same page. -/
theorem rows_of_neighbors (config : Config) (node : NodeView) (ledger : LedgerView) :
    let page := collect config node ledger
    (∃ ns : List Neighbor, ns.Perm node.neighbors ∧
        List.Forall₂ (Row.Shows ledger) ns page.rows ∧
        ∀ address, ns.filter (·.infoAddress = address) =
          node.neighbors.filter (·.infoAddress = address)) ∧
      page.rows.Pairwise (fun a b => Bytes.ofText a.infoAddress ≤ Bytes.ofText b.infoAddress) ∧
      page.neighborCount = page.rows.length ∧
      page.role.label =
        (if node.publicKey ∈ ledger.bookkeepers then "Verify Node" else "Service Node") ∧
      ∀ other : NodeView, other.id = node.id → other.publicKey = node.publicKey →
        other.neighbors.Perm node.neighbors → (node.neighbors.map Neighbor.infoAddress).Nodup →
        collect config other ledger = page := by
  intro page
  have hrows : page.rows = (Neighbor.ordered node.neighbors).map (Row.ofNeighbor ledger) :=
    rows_collect config node ledger
  refine ⟨⟨Neighbor.ordered node.neighbors, Neighbor.ordered_perm _, ?_,
    fun address => Neighbor.filter_ordered address _⟩, ?_, ?_, label_role ledger _, ?_⟩
  · rw [hrows, List.forall₂_map_right_iff, List.forall₂_same]
    exact fun n _ => Row.shows_ofNeighbor ledger n
  · rw [hrows, List.pairwise_map]
    exact (Neighbor.pairwise_ordered _).imp Neighbor.precedes_iff.mp
  · rw [hrows, List.length_map, (Neighbor.ordered_perm _).length_eq]
    rfl
  · intro other hid hkey hperm hdistinct
    have hsame : (collect config other ledger).rows = page.rows := by
      rw [hrows, rows_collect, Neighbor.ordered_eq_of_perm hperm hdistinct]
    have hcount := hperm.length_eq
    simp only [collect] at hsame
    simp only [page, collect, hsame, hcount, hid, hkey]

/-- Two neighbours, one of which keeps the books, listed in either order. -/
theorem rows_of_neighbors_swapped :
    let near : Neighbor := ⟨1, [1], "10.0.0.1", 20333, false⟩
    let far : Neighbor := ⟨0xabc, [2], "10.0.0.9", 20333, true⟩
    let ledger : LedgerView := { bookkeepers := [[2]] }
    let node : NodeView := { id := 7, publicKey := [7], neighbors := [far, near] }
    let other : NodeView := { id := 7, publicKey := [7], neighbors := [near, far] }
    (node.neighbors.map Neighbor.infoAddress).Nodup ∧
      collect {} other ledger = collect {} node ledger ∧
      (collect {} node ledger).role.label = "Service Node" := by
  intro near far ledger node other
  have hdistinct : (node.neighbors.map Neighbor.infoAddress).Nodup := by decide
  obtain ⟨-, -, -, hrole, hsame⟩ := rows_of_neighbors {} node ledger
  exact ⟨hdistinct, hsame other rfl rfl (List.Perm.swap far near []) hdistinct, hrole⟩

end Page

end LedgerNode

import RegistryConsent.Network.Range
import RegistryConsent.Proofs.Blanks

/-!
# Ranges as sets of addresses

A range stands for the addresses that agree with its network in the bits that count; the other bits
of the network say nothing. One range contains another exactly when its set includes the other one,
and the trusted network holds a text exactly when a single range of it includes all that the text
stands for. Several ranges that cover a block together do not hold it.
-/

namespace RegistryConsent

namespace Range

/-- An address belongs to a range when it is of its family and has its leading bits. -/
instance : Membership Address Range where
  mem r x := x.family = r.network.family ∧
    ∀ i < r.length, x.bits.getMsbD i = r.network.bits.getMsbD i

variable {a b : Range} {x : Address}

/-- An address is in a range when it is of its family and agrees with its network in the bits that
count. -/
theorem mem_iff : x ∈ a ↔ x.family = a.network.family ∧
    ∀ i < a.length, x.bits.getMsbD i = a.network.bits.getMsbD i := Iff.rfl

/-- The network of a range is in it. -/
theorem network_mem (a : Range) : a.network ∈ a := by
  apply And.intro rfl
  intro i _
  rfl

/-! ## The mask -/

private theorem mask?_length (a : Range) : a.network.family.mask? a.length = some a.mask :=
  (Option.some_get _).symm

/-- The mask of a range has the bits that count. -/
theorem getMsbD_mask (a : Range) (i : Nat) : a.mask.getMsbD i = decide (i < a.length) := by
  have mask : a.mask = BitVec.allOnes _ <<< (a.network.family.width - a.length) := by
    apply Option.some.inj
    rw [← mask?_length, Family.mask?_of_le a.length_le]
  rw [mask, BitVec.getMsbD_shiftLeft, BitVec.getMsbD_allOnes]
  have := a.length_le
  apply decide_eq_decide.mpr
  omega

/-- Words are the same under the mask of a range when they agree in the bits that count. -/
theorem masked_eq_iff (a : Range) (v w : BitVec a.network.family.width) :
    v &&& a.mask = w &&& a.mask ↔ ∀ i < a.length, v.getMsbD i = w.getMsbD i := by
  constructor
  · intro same i hi
    have bit := congrArg (BitVec.getMsbD · i) same
    simpa [getMsbD_mask, hi] using bit
  · intro agree
    apply BitVec.eq_of_getMsbD_eq
    intro i _
    rw [BitVec.getMsbD_and, BitVec.getMsbD_and, getMsbD_mask]
    by_cases counts : i < a.length
    · rw [agree i counts]
    · simp [counts]

/-! ## Inclusion -/

/-- A range contains another one when the network of the other one is in it and no more bits count
in it. -/
theorem contains_iff : a.contains b = true ↔ a.length ≤ b.length ∧ b.network ∈ a := by
  unfold contains
  rw [Bool.and_eq_true, decide_eq_true_iff, mem_iff]
  apply and_congr_right
  intro _
  by_cases same : b.network.family = a.network.family
  · simp only [same, ↓reduceDIte, beq_iff_eq, masked_eq_iff, BitVec.getMsbD_cast, true_and]
    constructor <;> exact fun agree i hi => (agree i hi).symm
  · simp [same]

/-- What is in a range is in every other one that has its network and in which no more bits count.
-/
theorem mem_of_mem (length : a.length ≤ b.length) (network : b.network ∈ a) (hx : x ∈ b) :
    x ∈ a := by
  apply And.intro (hx.1.trans network.1)
  intro i hi
  rw [hx.2 i (by omega), network.2 i hi]

/-- The address of a range that differs from its network in every bit that does not count. -/
def opposite (a : Range) : Address := ⟨a.network.family, a.network.bits ^^^ ~~~a.mask⟩

private theorem getMsbD_opposite (a : Range) {i : Nat} (hi : i < a.network.family.width) :
    a.opposite.bits.getMsbD i = (a.network.bits.getMsbD i ^^ !decide (i < a.length)) := by
  show (a.network.bits ^^^ ~~~a.mask).getMsbD i = _
  rw [BitVec.getMsbD_xor, BitVec.getMsbD_not, getMsbD_mask, decide_eq_true hi, Bool.true_and]

/-- The opposite address is in the range. -/
theorem opposite_mem (a : Range) : a.opposite ∈ a := by
  apply And.intro rfl
  intro i hi
  rw [getMsbD_opposite a (Nat.lt_of_lt_of_le hi a.length_le), decide_eq_true hi]
  simp

/-- A range that includes another one has no more bits that count: the first of them beyond the
other length would be the same in two addresses of the other range that differ in it. -/
theorem length_le_of_forall_mem (included : ∀ x ∈ b, x ∈ a) : a.length ≤ b.length := by
  apply Nat.le_of_not_lt
  intro longer
  have network := (included _ b.network_mem)
  have opposite := (included _ b.opposite_mem)
  have width : b.length < b.network.family.width := by
    rw [network.1]
    exact Nat.lt_of_lt_of_le longer a.length_le
  have same := (opposite.2 _ longer).trans (network.2 _ longer).symm
  rw [getMsbD_opposite b width] at same
  simp at same

/-- One range contains another exactly when it includes it. -/
theorem contains_iff_forall_mem : a.contains b = true ↔ ∀ x ∈ b, x ∈ a := by
  rw [contains_iff]
  constructor
  · intro ⟨length, network⟩ x hx
    exact mem_of_mem length network hx
  · intro included
    exact ⟨length_le_of_forall_mem included, included _ b.network_mem⟩

/-- In a range in which no bit counts there are all addresses of its family. -/
theorem mem_iff_of_length_eq_zero (h : a.length = 0) : x ∈ a ↔ x.family = a.network.family := by
  simp [mem_iff, h]

/-- Ranges of one length are the same set when the network of one belongs to the other. -/
theorem mem_iff_of_network_mem (length : a.length = b.length) (network : a.network ∈ b) :
    x ∈ a ↔ x ∈ b := by
  constructor
  · exact mem_of_mem (Nat.le_of_eq length.symm) network
  · apply mem_of_mem (Nat.le_of_eq length)
    exact ⟨network.1.symm, fun i hi => (network.2 i (length ▸ hi)).symm⟩

/-! ## The trusted network -/

/-- In the range of an address there is this address alone. -/
theorem mem_single {y : Address} : y ∈ single x ↔ y = x := by
  constructor
  · obtain ⟨f, v⟩ := x
    obtain ⟨g, w⟩ := y
    intro ⟨family, agree⟩
    obtain rfl : g = f := family
    obtain rfl : w = v := BitVec.eq_of_getMsbD_eq agree
    rfl
  · intro h
    rw [h]
    exact network_mem (single x)

variable {ranges : List Range} {s : String}

/-- A text that stands for a range is trusted when one of the ranges includes it. -/
theorem trusts_of_ok (h : parse s = .ok b) :
    trusts ranges s = true ↔ ∃ a ∈ ranges, ∀ x ∈ b, x ∈ a := by
  simp only [trusts, h, List.any_eq_true, contains_iff_forall_mem]

/-- A text that cannot be read is not trusted. -/
theorem trusts_of_error {e : InputError} (h : parse s = .error e) : trusts ranges s = false := by
  simp only [trusts, h]

/-- A text is trusted exactly when it stands for a range that one of the ranges includes. -/
theorem trusts_iff :
    trusts ranges s = true ↔ ∃ b, parse s = .ok b ∧ ∃ a ∈ ranges, ∀ x ∈ b, x ∈ a := by
  cases h : parse s with
  | ok b => simp [trusts_of_ok h]
  | error e => simp [trusts_of_error h]

/-- A text without a slash stands for a single address. -/
theorem parse_eq_ok_iff_of_bare (bare : '/' ∉ s.toList) :
    parse s = .ok b ↔ ∃ x, Address.parse? (Text.strip s.toList) = some x ∧ b = single x := by
  have uncut : Text.cut? '/' (Text.strip s.toList) = none := by
    apply Text.cut?_eq_none_iff.mpr
    exact fun slash => bare (Text.strip_subset _ slash)
  unfold parse
  simp only [uncut]
  cases Address.parse? (Text.strip s.toList) with
  | none => simp
  | some x => simp [single, eq_comm]

/-- A text without a length is trusted exactly when it is an address of one of the ranges. -/
theorem trusts_iff_of_bare (bare : '/' ∉ s.toList) :
    trusts ranges s = true ↔
      ∃ x, Address.parse? (Text.strip s.toList) = some x ∧ ∃ a ∈ ranges, x ∈ a := by
  rw [trusts_iff]
  constructor
  · rintro ⟨b, parsed, a, ha, included⟩
    obtain ⟨x, read, rfl⟩ := (parse_eq_ok_iff_of_bare bare).mp parsed
    exact ⟨x, read, a, ha, included x (mem_single.mpr rfl)⟩
  · rintro ⟨x, read, a, ha, hx⟩
    refine ⟨single x, (parse_eq_ok_iff_of_bare bare).mpr ⟨x, read, rfl⟩, a, ha, ?_⟩
    intro y hy
    rw [mem_single.mp hy]
    exact hx

/-- Further ranges take no trust away. -/
theorem trusts_of_subset {others : List Range} (more : ranges ⊆ others)
    (h : trusts ranges s = true) : trusts others s = true := by
  obtain ⟨b, parsed, a, ha, included⟩ := trusts_iff.mp h
  exact trusts_iff.mpr ⟨b, parsed, a, more ha, included⟩

/-- Ranges in another order trust the same texts. -/
theorem trusts_perm {others : List Range} (same : ranges.Perm others) :
    trusts others s = trusts ranges s := by
  apply Bool.eq_iff_iff.mpr
  exact ⟨trusts_of_subset same.symm.subset, trusts_of_subset same.subset⟩

/-- Trust is inclusion of sets of addresses. The mask of a range exists, without an underflow or a
shift by a whole word, and has the bits that count. One range contains another exactly when both are
of one family and the first includes the second, whatever the other bits of its network are; this is
reflexive and transitive, and a range of length zero contains its family. A text is trusted exactly
when it can be read and a single range includes all that it stands for; for the text of one address
that is the union of the ranges. Neither the order of the ranges nor further ones take trust away,
and a text that cannot be read has none. -/
theorem trust_is_inclusion (a b : Range) (ranges : List Range) (s : String) :
    (a.network.family.mask? a.length = some a.mask ∧
      ∀ i, a.mask.getMsbD i = decide (i < a.length)) ∧
    (a.contains b = true ↔ b.network.family = a.network.family ∧ ∀ x ∈ b, x ∈ a) ∧
    (∀ a' : Range, a'.length = a.length → a'.network ∈ a → a'.contains b = a.contains b) ∧
    a.contains a = true ∧
    (∀ c : Range, a.contains b = true → b.contains c = true → a.contains c = true) ∧
    (a.length = 0 → (a.contains b = true ↔ b.network.family = a.network.family)) ∧
    (trusts ranges s = true ↔ ∃ r, parse s = .ok r ∧ ∃ t ∈ ranges, ∀ x ∈ r, x ∈ t) ∧
    ('/' ∉ s.toList → (trusts ranges s = true ↔
      ∃ x, Address.parse? (Text.strip s.toList) = some x ∧ ∃ t ∈ ranges, x ∈ t)) ∧
    (∀ others : List Range, ranges.Perm others → trusts others s = trusts ranges s) ∧
    (∀ others : List Range, ranges ⊆ others → trusts ranges s = true → trusts others s = true) ∧
    (∀ e, parse s = .error e → trusts ranges s = false) := by
  refine ⟨⟨mask?_length a, getMsbD_mask a⟩, ?inclusion, ?hostBits, ?refl, ?trans, ?family,
    trusts_iff, trusts_iff_of_bare, fun _ => trusts_perm, fun _ => trusts_of_subset,
    fun _ => trusts_of_error⟩
  case inclusion =>
    rw [contains_iff_forall_mem]
    constructor
    · intro included
      exact ⟨(included _ b.network_mem).1, included⟩
    · exact And.right
  case hostBits =>
    intro a' length network
    apply Bool.eq_iff_iff.mpr
    simp only [contains_iff_forall_mem, mem_iff_of_network_mem length network]
  case refl =>
    apply contains_iff_forall_mem.mpr
    exact fun _ hx => hx
  case trans =>
    intro c hab hbc
    rw [contains_iff_forall_mem] at hab hbc ⊢
    exact fun x hx => hab x (hbc x hx)
  case family =>
    intro zero
    rw [contains_iff, mem_iff_of_length_eq_zero zero, zero]
    simp

/-- The block 193.0.0.0/16. -/
private def block : Range := ⟨⟨.v4, 0xc1000000#32⟩, 16, by decide⟩

/-- The block 193.0.0.0/17. -/
private def lowerHalf : Range := ⟨⟨.v4, 0xc1000000#32⟩, 17, by decide⟩

/-- The block 193.0.128.0/17. -/
private def upperHalf : Range := ⟨⟨.v4, 0xc1008000#32⟩, 17, by decide⟩

private theorem mem_half_of_mem_block (hx : x ∈ block) : x ∈ lowerHalf ∨ x ∈ upperHalf := by
  have below (i : Nat) (hi : i < 17) : i < 16 ∨ i = 16 := by omega
  have upper : ∀ i < 16, block.network.bits.getMsbD i = upperHalf.network.bits.getMsbD i := by
    decide
  cases next : x.bits.getMsbD 16 with
  | false =>
    left
    apply And.intro hx.1
    intro i hi
    obtain shared | rfl := below i hi
    · exact hx.2 i shared
    · exact next
  | true =>
    right
    apply And.intro hx.1
    intro i hi
    obtain shared | rfl := below i hi
    · exact (hx.2 i shared).trans (upper i shared)
    · exact next

/-- Two halves of a block include each of its addresses, so that one of them is trusted, but not the
block, which neither half includes. -/
theorem halves_distrust_block :
    parseAll ["193.0.0.0/17", "193.0.128.0/17"] = .ok [lowerHalf, upperHalf] ∧
    parse "193.0.0.0/16" = .ok block ∧
    (∀ x ∈ block, ∃ a ∈ [lowerHalf, upperHalf], x ∈ a) ∧
    trusts [lowerHalf, upperHalf] "193.0.0.0/16" = false ∧
    trusts [lowerHalf, upperHalf] "193.0.200.7" = true := by
  refine ⟨rfl, rfl, ?_, by decide, ?_⟩
  · intro x hx
    simpa using mem_half_of_mem_block hx
  · have trust := trust_is_inclusion upperHalf block [lowerHalf, upperHalf] "193.0.200.7"
    obtain ⟨_, _, _, _, _, _, _, bare, _⟩ := trust
    apply (bare (by decide)).mpr
    exact ⟨⟨.v4, 0xc100c807#32⟩, rfl, upperHalf, by simp, rfl, by decide⟩

end Range

end RegistryConsent

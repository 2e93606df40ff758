import AllInSafe.Routes.Lemmas.Sets

/-!
# The two slips, as conditions on a set of nets

The loop drops a net that lies in the current net and has its type, although a larger net of the other type may start
at the same address; and where it splits the current net, it adds the second half without a look at what is in the
queue. Whether it comes to that is a matter of the nets alone: of the smallest nets around a few blocks, and of the
types that the addresses between them have.
-/

namespace AllInSafe.Routes
open AllInSafe.Library

namespace IpAddress

/-- The block of this prefix length around the address. -/
def around (ip : IpAddress) (networkMask : Nat) : IpAddress :=
  { ip with networkMask }

/-- The block is not the first part of the block that is twice as large. -/
def IsSecondHalf (ip : IpAddress) : Prop :=
  (ip.around (ip.networkMask - 1)).getFirstAddress < ip.getFirstAddress

instance (ip : IpAddress) : Decidable ip.IsSecondHalf :=
  inferInstanceAs (Decidable (_ < _))

end IpAddress

/-- The nets that hold a block: the smallest one goes first. -/
def holders : Entries IpAddress IpAddress Bool :=
  ⟨fun n block => n.Covers block.getFirstAddress ∧ n.networkMask ≤ block.networkMask, IpAddress.networkMask,
    IpAddress.included⟩

instance (n : IpAddress) (x : Nat) : Decidable (nets.Covers n x) :=
  inferInstanceAs (Decidable (n.Covers x))

instance (n block : IpAddress) : Decidable (holders.Covers n block) :=
  inferInstanceAs (Decidable (_ ∧ _))

/-- What can stand in the queue: a net, or the second half that a split has left of the smallest net around it. -/
def Piece (l : List IpAddress) (block : IpAddress) (included : Bool) : Prop :=
  (containsNet l block = true ∨ block.IsSecondHalf) ∧ holders.Resolves l block included

/-- The loop comes to the first address of the block with a current net of the type, and this holds the block. -/
def Enters (l : List IpAddress) (block : IpAddress) (included : Bool) : Prop :=
  nets.Resolves l block.getFirstAddress included ∧
    ∃ m < block.networkMask + 1, (block.around m).getFirstAddress = block.getFirstAddress ∧
      Piece l (block.around m) included

/-- The loop comes to the net within a current net of the same type, and up to the net all addresses have that type,
but something larger that starts there has the other one: the net is dropped. -/
structure Hidden (l : List IpAddress) (n : IpAddress) : Prop where
  within : ∃ m < n.networkMask, (n.around m).secondHalf.getFirstAddress = n.getFirstAddress ∧
    Enters l (n.around m) n.included ∧
    ∀ i < n.getFirstAddress - (n.around m).getFirstAddress,
      nets.Resolves l ((n.around m).getFirstAddress + i) n.included
  larger : ∃ m < n.networkMask, (n.around m).getFirstAddress = n.getFirstAddress ∧ Piece l (n.around m) (!n.included)
  smallest : ∀ k ∈ l, k.getFirstAddress = n.getFirstAddress → k.included = !n.included → k.networkMask < n.networkMask

/-- The loop comes to the block with a current net that holds it, the smallest net around its second half has the
other type, and the current net is split for something before that half or smaller than it: the half is added beside
the one of the other type. -/
structure Doubled (l : List IpAddress) (block : IpAddress) (included : Bool) : Prop where
  bits : block.networkMask < block.addressBits
  enters : Enters l block included
  second : holders.Resolves l block.secondHalf (!included)
  split : (∃ i < block.secondHalf.getFirstAddress - block.getFirstAddress,
      nets.Resolves l (block.getFirstAddress + i) (!included)) ∨
    ∃ n ∈ l, n.getFirstAddress = block.secondHalf.getFirstAddress ∧ block.secondHalf.networkMask < n.networkMask ∧
      n.included = !included

section

variable (l : List IpAddress) (block n : IpAddress) (included : Bool)

instance : Decidable (Piece l block included) := inferInstanceAs (Decidable (_ ∧ _))

instance : Decidable (Enters l block included) := inferInstanceAs (Decidable (_ ∧ _))

instance : Decidable (Hidden l n) :=
  decidable_of_iff (_ ∧ _ ∧ _) ⟨fun ⟨hwithin, hlarger, hsmallest⟩ => ⟨hwithin, hlarger, hsmallest⟩,
    fun h => ⟨h.within, h.larger, h.smallest⟩⟩

instance : Decidable (Doubled l block included) :=
  decidable_of_iff (_ ∧ _ ∧ _ ∧ _) ⟨fun ⟨hbits, henters, hsecond, hsplit⟩ => ⟨hbits, henters, hsecond, hsplit⟩,
    fun h => ⟨h.bits, h.enters, h.second, h.split⟩⟩

end

/-- The nets without those that are dropped so, from the lowest first address on. -/
def remaining (l : List IpAddress) : List IpAddress :=
  l.foldl (fun kept n => if Hidden kept n then kept.erase n else kept) l

end AllInSafe.Routes

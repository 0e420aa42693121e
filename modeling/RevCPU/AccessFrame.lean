import RevCPU.Tlb
/-!
What an access leaves alone. A translation changes the TLB with its counts, and the page table; a store
changes the bytes too. A relation that holds across each of these changes holds across a whole access.
-/
namespace RevCPU.AccessFrame
open Mem

/-- A relation of the memories before and after that every change an access makes stays within. -/
structure Frame (rel : RevMem → RevMem → Prop) : Prop where
  refl : ∀ mem, rel mem mem
  trans : ∀ {mem middle after}, rel mem middle → rel middle after → rel mem after
  search : ∀ mem vAddr, rel mem (mem.searchTLB vAddr).2
  add : ∀ {mem after vAddr physAddr}, physAddr ≠ invalidAddr →
    mem.addToTLB vAddr physAddr = .ok after → rel mem after
  pages : ∀ mem pageMap nextPage, rel mem { mem with pageMap := pageMap, nextPage := nextPage }
  bytes : ∀ mem physMem, rel mem { mem with physMem := physMem }

namespace Frame
variable {rel : RevMem → RevMem → Prop} (frame : Frame rel) {mem after : RevMem}
include frame

theorem touchPage (mem : RevMem) (page : Nat) : rel mem (mem.touchPage page).2 := by
  unfold RevMem.touchPage
  split
  · exact frame.pages mem _ _
  · exact frame.refl mem

theorem frameOf (mem : RevMem) (page : Nat) : rel mem (mem.frameOf page).2 := by
  unfold RevMem.frameOf
  split
  · exact frame.pages mem _ _
  · exact frame.refl mem

theorem calcPhysAddr {page vAddr physAddr : Nat}
    (translated : mem.calcPhysAddr page vAddr = .ok (physAddr, after)) : rel mem after := by
  have searched := frame.search mem vAddr
  simp only [RevMem.calcPhysAddr] at translated
  split at translated
  · split at translated
    · split at translated
      · exact absurd translated (by simp)
      · rename_i added
        cases translated
        have touched := frame.trans searched (frame.touchPage _ page)
        exact frame.trans touched (frame.add (Tlb.translated_ne _ _) added)
    · exact absurd translated (by simp)
  · cases translated
    exact searched

theorem locate {addr len : Nat} {extent : RevMem.Extent}
    (located : mem.locate addr len = .ok (extent, after)) : rel mem after := by
  simp only [RevMem.locate] at located
  split at located
  · exact absurd located (by simp)
  · rename_i first translated
    have upTo := frame.trans (frame.calcPhysAddr translated) (frame.frameOf first (addr >>> addrShift))
    split at located
    · split at located
      · exact absurd located (by simp)
      · rename_i adjTranslated
        cases located
        exact frame.trans upTo (frame.calcPhysAddr adjTranslated)
    · cases located
      exact upTo

theorem copyIn {base cur count : Nat} {data : Buffer}
    (copied : mem.copyIn base cur data count = .ok after) : rel mem after := by
  induction count generalizing after with
  | zero =>
    cases copied
    exact frame.refl mem
  | succ count ih =>
    rw [RevMem.copyIn] at copied
    split at copied
    · exact absurd copied (by simp)
    · rename_i before
      split at copied
      · cases copied
        exact frame.trans (ih before) (frame.bytes _ _)
      · exact absurd copied (by simp)

end Frame
end RevCPU.AccessFrame

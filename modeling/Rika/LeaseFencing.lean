import Mathlib.Logic.Relation
import Mathlib.Order.Basic

structure Lease (F H T : Type*) where
  fence : F
  holder : Option H
  expires : Option T

namespace Lease

variable {F H T : Type*}

def Admits (lease : Lease F H T) (fence : F) (holder : H) : Prop := lease.holder = some holder ∧ lease.fence = fence

section Time

variable [Preorder T]

def Live (lease : Lease F H T) (now : T) : Prop := ∃ expires, lease.expires = some expires ∧ now < expires

theorem Live.of_le {lease : Lease F H T} {now later : T} (h : lease.Live later) (hle : now ≤ later) : lease.Live now := by
  obtain ⟨expires, hexpires, hlt⟩ := h
  exact ⟨expires, hexpires, lt_of_le_of_lt hle hlt⟩

end Time

variable [Preorder F] [Preorder T]

/-- A lease is renewed while it lives, taken back under a fence that has not
gone down, and granted under a fence that has gone up. -/
inductive Step (now : T) : Lease F H T → Lease F H T → Prop
  | keep (lease) : Step now lease lease
  | renew (fence) (holder) (expires expires') (hlive : now < expires) :
      Step now ⟨fence, holder, some expires⟩ ⟨fence, holder, some expires'⟩
  | retire (lease : Lease F H T) (fence) (hfence : lease.fence ≤ fence) : Step now lease ⟨fence, none, none⟩
  | grant (lease : Lease F H T) (fence) (holder) (expires) (hfence : lease.fence < fence) :
      Step now lease ⟨fence, some holder, expires⟩

variable {now : T} {lease lease' : Lease F H T} {fence : F} {holder : H}

section

variable (h : Step now lease lease')

include h

theorem Step.fence_le : lease.fence ≤ lease'.fence := by
  cases h with
  | keep | renew => exact le_refl _
  | retire _ _ hfence => exact hfence
  | grant _ _ _ _ hfence => exact hfence.le

theorem Step.fence_lt (hadmits : lease'.Admits fence holder)
    (hnot : ¬lease.Admits fence holder) : lease.fence < lease'.fence := by
  cases h with
  | keep => exact absurd hadmits hnot
  | renew => exact absurd hadmits hnot
  | retire => exact absurd hadmits.1.symm (Option.some_ne_none _)
  | grant _ _ _ _ hfence => exact hfence

theorem Step.fence_lt_of_live (hadmits : lease'.Admits fence holder ∧ lease'.Live now)
    (hnot : ¬(lease.Admits fence holder ∧ lease.Live now)) : lease.fence < lease'.fence := by
  cases h with
  | keep => exact absurd hadmits hnot
  | renew _ _ _ _ hlive => exact absurd ⟨hadmits.1, _, rfl, hlive⟩ hnot
  | retire => exact absurd hadmits.1.1.symm (Option.some_ne_none _)
  | grant _ _ _ _ hfence => exact hfence

theorem Step.not_admits (hle : fence ≤ lease.fence) (hnot : ¬lease.Admits fence holder) :
    ¬lease'.Admits fence holder := by
  cases h with
  | keep => exact hnot
  | renew => exact hnot
  | retire => exact fun hadmits => Option.some_ne_none _ hadmits.1.symm
  | grant _ _ _ _ hfence => exact fun hadmits => (lt_of_le_of_lt hle hfence).ne hadmits.2.symm

theorem Step.not_live (hle : fence ≤ lease.fence)
    (hnot : ¬(lease.Admits fence holder ∧ lease.Live now)) : ¬(lease'.Admits fence holder ∧ lease'.Live now) := by
  cases h with
  | keep => exact hnot
  | renew _ _ _ _ hlive => exact fun hadmits => hnot ⟨hadmits.1, _, rfl, hlive⟩
  | retire => exact fun hadmits => Option.some_ne_none _ hadmits.1.1.symm
  | grant _ _ _ _ hfence => exact fun hadmits => (lt_of_le_of_lt hle hfence).ne hadmits.1.2.symm

end

/-- The clock and the lease after one step, which may have waited. -/
def Next (before after : T × Lease F H T) : Prop := before.1 ≤ after.1 ∧ Step after.1 before.2 after.2

abbrev Run : T × Lease F H T → T × Lease F H T → Prop := Relation.ReflTransGen Next

variable {before after : T × Lease F H T}

theorem Run.fence_le (h : Run before after) : before.2.fence ≤ after.2.fence := by
  induction h with
  | refl => exact le_refl _
  | tail _ hnext ih => exact ih.trans hnext.2.fence_le

theorem Run.not_admits (h : Run before after) (hle : fence ≤ before.2.fence) (hnot : ¬before.2.Admits fence holder) :
    ¬after.2.Admits fence holder := by
  induction h with
  | refl => exact hnot
  | tail hrun hnext ih => exact hnext.2.not_admits (hle.trans (fence_le hrun)) ih

theorem Run.not_live (h : Run before after) (hle : fence ≤ before.2.fence)
    (hnot : ¬(before.2.Admits fence holder ∧ before.2.Live before.1)) :
    ¬(after.2.Admits fence holder ∧ after.2.Live after.1) := by
  induction h with
  | refl => exact hnot
  | tail hrun hnext ih =>
    exact hnext.2.not_live (hle.trans (fence_le hrun)) fun h => ih ⟨h.1, h.2.of_le hnext.1⟩

end Lease

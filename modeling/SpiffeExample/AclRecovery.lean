import SpiffeExample.AclFreshness

namespace SpiffeExample.ACLManager
set_option autoImplicit true
open Transition

/-- The timer is armed and the list and the modification time were read from the same file. -/
def Armed (m : ACLManager) : Prop :=
  m.pc = .scheduled ∧ m.allowedSpiffeIds = m.file.lines ∧ m.timeStamp = m.file.lastModified

def FailedReload (m : ACLManager) (e : Event) : Prop :=
  e = .program ∧ m.pc = .onChange ∧ m.file.canRead = false

instance (m : ACLManager) (e : Event) : Decidable (FailedReload m e) :=
  inferInstanceAs (Decidable (_ ∧ _ ∧ _))

def UpToDate (m : ACLManager) : Prop :=
  m.pc = .scheduled → m.file.canRead = true →
    ∀ k n, system.run m (List.replicate (k + 1) .program) = some n → n.pc = .scheduled →
      n.allowedSpiffeIds = n.file.lines

/-- A failed reload keeps the list and the timer, and the polls of a readable file work. -/
def Recoverable (m : ACLManager) (e : Event) : Prop :=
  (FailedReload m e →
    ∀ t, step m e = some t → t.allowedSpiffeIds = m.allowedSpiffeIds ∧ t.pc = .scheduled) ∧
  UpToDate m

theorem failedReload_step (h : FailedReload m e) :
    step m e = some { m with pc := .cancelled (.illegalStateException .ioException) } := by
  obtain ⟨rfl, hp, hr⟩ := h
  rw [step, next, hp]
  simp only [loadList, hr, Bool.false_eq_true, if_false]

theorem Armed.synced (hi : Armed m) : Synced id m := by
  obtain ⟨hp, hl, _⟩ := hi
  simp only [Synced, hp]
  exact fun _ => hl

theorem Synced.upToDate (h : Synced id m) : UpToDate m :=
  fun hp hr _ _ hn hq => h.poll hp hr hn hq

theorem Recoverable.not_failedReload (h : Recoverable m e) : ¬ FailedReload m e := by
  intro hf
  have ht := (h.1 hf _ (failedReload_step hf)).2
  cases ht

theorem recoverable_of_not_failedReload (h : Synced id m) (hf : ¬ FailedReload m e) :
    Recoverable m e :=
  ⟨fun h => absurd h hf, h.upToDate⟩

/-- In a run whose edits show in the modification time, the reloads are recoverable exactly when
no poll goes on to load a file that it cannot read. -/
theorem recoverable_iff (hi : Armed m) (hr : system.Along Noticed m es) :
    system.Along Recoverable m es ↔ system.Along (fun m e => ¬ FailedReload m e) m es := by
  apply Iff.intro
  · intro h
    exact System.Along.mono (I := fun _ => True) (fun _ _ _ => trivial)
      (fun _ h => h.not_failedReload) trivial h
  · intro h
    exact System.Along.mono (I := Synced id) (fun hI hc hs => hI.step hc.1 hs)
      (fun hI hc => recoverable_of_not_failedReload hI hc.2) hi.synced (hr.and h)

def sample.armed : ACLManager :=
  { sample with
    allowedSpiffeIds := ["spiffe://a", "spiffe://b"]
    timeStamp := 1
    pc := .scheduled }

theorem recoverable_renamed :
    system.Along Recoverable sample.armed
      [.program, .program, .access false false, .edit "spiffe://b\n" 2, .access true true,
        .program, .program, .program] := by
  have hi : Armed sample.armed := ⟨rfl, rfl, rfl⟩
  exact (recoverable_iff hi (by decide)).2 (by decide)

/-- The file is replaced by deletion and renaming around a poll, which ends the timer. -/
theorem removal_unnoticed :
    ¬ system.Along Recoverable sample.armed [.access false false, .program, .program, .program] ∧
    ∃ m, system.run sample.armed [.access false false, .program, .program, .program,
        .access true true, .edit "spiffe://b\n" 2] = some m ∧
      m.next = none ∧ m.isAllowed "spiffe://a" = true ∧ "spiffe://a" ∉ m.file.lines := by
  apply And.intro
  · intro h
    have hf := (((h.2 _ rfl).2 _ rfl).2 _ rfl).1
    exact hf.not_failedReload ⟨rfl, rfl, rfl⟩
  · exact ⟨_, rfl, rfl, by decide, by decide⟩

end SpiffeExample.ACLManager

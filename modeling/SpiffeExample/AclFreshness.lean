import SpiffeExample.AclManager

namespace SpiffeExample.ACLManager
set_option autoImplicit true
open Transition

/-- Between loads, the recorded modification time does not vouch for a list that the file does
not have, as far as `view` tells lists apart. -/
def Synced (view : List String → α) (m : ACLManager) : Prop :=
  match m.pc with
  | .scheduled | .compare _ =>
    m.timeStamp = m.file.mtime → view m.allowedSpiffeIds = view m.file.lines
  | .onChange | .cancelled _ => True
  | .aclManager | .fileWatcher | .failed _ => False

/-- An edit outside a reload leaves another modification time than the recorded one. -/
def Noticed (m : ACLManager) : Event → Prop
  | .edit _ mtime => m.pc = .onChange ∨ m.timeStamp ≠ mtime
  | .program | .access _ _ => True

instance (m : ACLManager) : ∀ e, Decidable (Noticed m e)
  | .program | .access _ _ => .isTrue trivial
  | .edit _ _ => inferInstanceAs (Decidable (_ ∨ _))

theorem Synced.next (h : Synced view m) (hn : next m = some t) : Synced view t := by
  cases next_cases hn with
  | loaded hp | rejected hp | stamped hp => simp only [Synced, hp] at h
  | polled hp | unchanged hp =>
    simp only [Synced, hp] at h
    exact h
  | changed | escaped => trivial
  | reloaded => exact fun _ => rfl

theorem Synced.edit (h : Synced view m) (hv : m.pc = .onChange ∨ m.timeStamp ≠ mtime) :
    Synced view { m with file := { m.file with content, mtime } } := by
  cases hp : m.pc with
  | aclManager | fileWatcher | failed => simp only [Synced, hp] at h
  | scheduled | compare now =>
    have hne := hv.resolve_left fun hc => (nomatch hp.symm.trans hc)
    simp only [Synced]
    exact fun he => absurd he hne
  | onChange | cancelled => simp only [Synced]

theorem Synced.step (h : Synced view m) (hr : Noticed m e) (hs : step m e = some t) :
    Synced view t := by
  cases e with
  | program => exact h.next hs
  | edit content mtime =>
    cases hs
    exact h.edit hr
  | access present readable =>
    cases hs
    exact h

def Polled (view : List String → α) (m : ACLManager) : Prop :=
  match m.pc with
  | .scheduled => view m.allowedSpiffeIds = view m.file.lines
  | .compare now => now = m.file.mtime
  | .onChange | .cancelled _ => True
  | .aclManager | .fileWatcher | .failed _ => False

theorem Polled.next (hs : Synced view m) (hr : m.file.canRead = true) (h : Polled view m)
    (hn : next m = some t) : Polled view t := by
  cases next_cases hn with
  | loaded hp | rejected hp | stamped hp => simp only [Polled, hp] at h
  | polled => exact AclFile.lastModified_canRead hr
  | changed | escaped => trivial
  | unchanged hp ht =>
    simp only [Polled, hp] at h
    simp only [Synced, hp] at hs
    exact hs (ht.trans h)
  | reloaded => rfl

theorem Polled.run (hs : Synced view m) (hr : m.file.canRead = true) (h : Polled view m)
    (hn : system.run m (List.replicate k .program) = some n) : Polled view n := by
  induction k generalizing m with
  | zero =>
    cases hn
    exact h
  | succ k ih =>
    obtain ⟨t, ht, hn⟩ := System.run_cons.1 hn
    exact ih (hs.next ht) (next_file ht ▸ hr) (h.next hs hr ht) hn

theorem Synced.poll (hs : Synced view m) (hp : m.pc = .scheduled) (hr : m.file.canRead = true)
    (hn : system.run m (List.replicate (k + 1) .program) = some n) (hq : n.pc = .scheduled) :
    view n.allowedSpiffeIds = view n.file.lines := by
  obtain ⟨t, ht, hn⟩ := System.run_cons.1 hn
  have h : Polled view t := by
    cases next_cases ht with
    | polled => exact AclFile.lastModified_canRead hr
    | loaded hp' | rejected hp' | stamped hp' | changed hp' | unchanged hp' | reloaded hp'
    | escaped hp' => cases hp.symm.trans hp'
  have h' := h.run (hs.next ht) (next_file ht ▸ hr) hn
  simp only [Polled, hq] at h'
  exact h'

/-- The file stays readable and every edit raises its modification time. -/
def Editing (m : ACLManager) (e : Event) : Prop :=
  m.file.canRead = true ∧ Raises m e

instance (m : ACLManager) (e : Event) : Decidable (Editing m e) :=
  inferInstanceAs (Decidable (_ ∧ _))

def edited : System ACLManager Event :=
  system.restrict Editing

theorem edited_step : edited.step m e = some t ↔ Editing m e ∧ step m e = some t :=
  System.restrict_step

def Ordered (m : ACLManager) : Prop :=
  m.timeStamp ≤ m.file.mtime ∧ ∀ now, m.pc = .compare now → now ≤ m.file.mtime

theorem Ordered.noticed (h : Ordered m) (hr : Raises m e) : Noticed m e := by
  cases e with
  | program | access => trivial
  | edit content mtime =>
    have hlt := Nat.lt_of_le_of_lt h.1 hr
    exact .inr (Nat.ne_of_lt hlt)

theorem Ordered.next (h : Ordered m) (hn : next m = some t) : Ordered t := by
  obtain ⟨hs, hc⟩ := h
  cases next_cases hn with
  | loaded | rejected | unchanged | reloaded | escaped => exact ⟨hs, fun _ hp => (nomatch hp)⟩
  | stamped => exact ⟨m.file.lastModified_le, fun _ hp => (nomatch hp)⟩
  | polled =>
    apply And.intro hs
    intro now hp
    cases hp
    exact m.file.lastModified_le
  | changed hp => exact ⟨hc _ hp, fun _ hp => (nomatch hp)⟩

theorem Ordered.step (h : Ordered m) (hr : Raises m e) (hs : step m e = some t) : Ordered t := by
  cases e with
  | program => exact h.next hs
  | edit content mtime =>
    cases hs
    have hle := Nat.le_of_lt hr
    exact ⟨h.1.trans hle, fun now hp => (h.2 now hp).trans hle⟩
  | access present readable =>
    cases hs
    exact h

theorem Synced.edited_run (h : Synced view m) (ho : Ordered m) (hr : edited.run m es = some t) :
    Synced view t := by
  have hi := edited.run_preserves (I := fun m => Synced view m ∧ Ordered m) ?_ ⟨h, ho⟩ hr
  · exact hi.1
  · intro s e u h hs
    obtain ⟨h, ho⟩ := h
    obtain ⟨⟨_, hr⟩, hs⟩ := edited_step.1 hs
    exact ⟨h.step (ho.noticed hr) hs, ho.step hr hs⟩

/-- After every poll that is completed with no edit in it or since, exactly the lines of the
file are allowed. -/
def NoLostUpdate (m : ACLManager) : Prop :=
  ∀ es p k n, edited.run m es = some p → p.pc = .scheduled →
    edited.run p (List.replicate (k + 1) .program) = some n → n.pc = .scheduled →
    ∀ spiffeId, n.isAllowed spiffeId = true ↔ spiffeId ∈ n.file.lines

theorem edited_idle (hp : m.pc = .scheduled) (hr : m.file.canRead = true)
    (ht : m.timeStamp = m.file.lastModified) :
    edited.run m (List.replicate 2 .program) = some m := by
  have hpoll : next m = some { m with pc := .compare m.file.lastModified } := by
    simp only [next, hp]
  have hdone : next { m with pc := .compare m.file.lastModified } = some m := by
    simp only [next, if_neg (not_not_intro ht), ← hp]
  exact System.run_cons.2 ⟨_, edited_step.2 ⟨⟨hr, trivial⟩, hpoll⟩,
    System.run_cons.2 ⟨_, edited_step.2 ⟨⟨hr, trivial⟩, hdone⟩, rfl⟩⟩

theorem edited_canRead (h : edited.run m (e :: es) = some t) : m.file.canRead = true := by
  obtain ⟨_, hs, _⟩ := System.run_cons.1 h
  exact (edited_step.1 hs).1.1

def allowed (ids : List String) : Set String := { spiffeId | spiffeId ∈ ids }

theorem Synced.noLostUpdate (h : Synced allowed m) (ho : Ordered m) : NoLostUpdate m := by
  intro es p k n hr hp hn hq spiffeId
  have hl := (h.edited_run ho hr).poll hp (edited_canRead hn) (System.restrict_run.1 hn).1 hq
  rw [isAllowed, List.contains_iff_mem]
  exact Set.ext_iff.1 hl spiffeId

/-- The constructor has loaded `ids` and not yet read the modification time, or has gone on. -/
def Loaded (ids : List String) (m : ACLManager) : Prop :=
  match m.pc with
  | .aclManager => False
  | .fileWatcher => m.allowedSpiffeIds = ids
  | .scheduled | .compare _ | .onChange | .failed _ | .cancelled _ => True

theorem Loaded.step (h : Loaded ids m) (hs : step m e = some t) : Loaded ids t := by
  cases e with
  | program =>
    cases next_cases hs with
    | loaded hp => simp only [Loaded, hp] at h
    | rejected | stamped | polled | changed | unchanged | reloaded | escaped => trivial
  | edit | access =>
    cases hs
    exact h

theorem initial_list
    (hr : edited.run m (.program :: es) = some n) (hq : n.pc = .fileWatcher) :
    n.allowedSpiffeIds = m.file.lines := by
  obtain ⟨t, hs, hr⟩ := System.run_cons.1 hr
  have ht : Loaded m.file.lines t := by
    cases next_cases (edited_step.1 hs).2 with
    | loaded => rfl
    | rejected | stamped | polled | changed | unchanged | reloaded | escaped => trivial
  have hn : Loaded m.file.lines n :=
    edited.run_preserves (fun h hs => h.step (edited_step.1 hs).2) ht hr
  simp only [Loaded, hq] at hn
  exact hn

/-- The list is loaded in `m` and the modification time read in `n`: from then on no update is
lost exactly when the edits `es` in between leave the lines as they were. -/
theorem noLostUpdate_iff (hr : edited.run m (.program :: es) = some n) (hp : n.pc = .fileWatcher)
    (hs : edited.step n .program = some t) :
    NoLostUpdate t ↔ ∀ spiffeId, spiffeId ∈ m.file.lines ↔ spiffeId ∈ n.file.lines := by
  have hl := initial_list hr hp
  obtain ⟨he, hn⟩ := edited_step.1 hs
  have hm := AclFile.lastModified_canRead he.1
  cases next_cases hn with
  | stamped =>
    apply Iff.intro
    · intro h spiffeId
      have h' := h [] _ 1 _ rfl rfl (edited_idle rfl he.1 rfl) rfl spiffeId
      rw [isAllowed, List.contains_iff_mem] at h'
      exact hl ▸ h'
    · intro h
      have hsynced : allowed n.allowedSpiffeIds = allowed n.file.lines := hl ▸ Set.ext h
      exact Synced.noLostUpdate (fun _ => hsynced) ⟨hm.le, fun _ hp => (nomatch hp)⟩
  | loaded hp' | rejected hp' | polled hp' | changed hp' | unchanged hp' | reloaded hp'
  | escaped hp' => cases hp.symm.trans hp'

def sample : ACLManager :=
  ⟨some "acl", ⟨"spiffe://a\nspiffe://b\n", 1, true, true⟩, [], 0, .aclManager⟩

theorem noLostUpdate_rewritten :
    NoLostUpdate { sample with
      file := ⟨"spiffe://b\nspiffe://a", 2, true, true⟩
      allowedSpiffeIds := ["spiffe://a", "spiffe://b"]
      timeStamp := 2
      pc := .scheduled } := by
  have hr : edited.run sample [.program, .edit "spiffe://b\nspiffe://a" 2] = some { sample with
      file := ⟨"spiffe://b\nspiffe://a", 2, true, true⟩
      allowedSpiffeIds := ["spiffe://a", "spiffe://b"]
      pc := .fileWatcher } := by decide
  have hm : sample.file.lines = ["spiffe://a", "spiffe://b"] := by decide
  have hn : AclFile.lines ⟨"spiffe://b\nspiffe://a", 2, true, true⟩ =
      ["spiffe://b", "spiffe://a"] := by decide
  apply (noLostUpdate_iff hr rfl rfl).2
  intro spiffeId
  rw [hm, hn]
  exact (List.Perm.swap _ _ _).mem_iff

/-- A removal that falls between the two reads of the constructors goes unnoticed. -/
theorem removal_lost : ¬ NoLostUpdate sample := by
  intro h
  have hr : edited.run sample [.program, .edit "spiffe://b\n" 2, .program] = some { sample with
      file := ⟨"spiffe://b\n", 2, true, true⟩
      allowedSpiffeIds := ["spiffe://a", "spiffe://b"]
      timeStamp := 2
      pc := .scheduled } := by decide
  have h' := h _ _ 1 _ hr rfl (edited_idle rfl rfl rfl) rfl "spiffe://a"
  exact absurd (h'.1 (by decide)) (by decide)

end SpiffeExample.ACLManager

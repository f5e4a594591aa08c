import SpiffeExample.PeerCheckVerdicts

namespace SpiffeExample.PeerChecks
set_option autoImplicit true
open Transition Threads

/-- An edit raises the modification time and does not fall between the two reads of the
constructors. -/
def Careful (c : Config) : Event → Prop
  | .world (.edit _ mtime) => c.shared.acl.file.mtime < mtime ∧ c.shared.acl.pc ≠ .fileWatcher
  | _ => True

/-- The file is not touched. -/
def Quiet (_ : Config) : Event → Prop
  | .world (.edit _ _) | .world (.access _ _) => False
  | _ => True

instance (c : Config) : ∀ e, Decidable (Careful c e)
  | .world (.edit _ _) => inferInstanceAs (Decidable (_ ∧ _))
  | .world (.identity _) | .world (.access _ _) | .world .poll => .isTrue trivial
  | .spawn _ | .run _ => .isTrue trivial

instance (c : Config) : ∀ e, Decidable (Quiet c e)
  | .world (.edit _ _) | .world (.access _ _) => .isFalse id
  | .world (.identity _) | .world .poll | .spawn _ | .run _ => .isTrue trivial

def isPoll : Event → Bool
  | .world .poll => true
  | _ => false

/-- Until the timer is armed the list has been read from the file as it is. -/
def Fresh (m : ACLManager) : Prop :=
  match m.pc with
  | .aclManager | .failed _ => True
  | .fileWatcher => m.allowedSpiffeIds = m.file.lines
  | .scheduled | .compare _ | .onChange | .cancelled _ => m.Synced id ∧ m.Ordered

theorem fresh_initialized (h : Fresh m) (hc : classState m = .initialized) :
    m.Synced id ∧ m.Ordered := by
  rw [classState] at hc
  rw [Fresh] at h
  cases hp : m.pc with
  | aclManager | fileWatcher | failed =>
    rw [hp] at hc
    cases hc
  | scheduled | compare | onChange | cancelled =>
    rw [hp] at h
    exact h

theorem fresh_of_synced (h : m.Synced id ∧ m.Ordered) (hc : classState m = .initialized) :
    Fresh m := by
  rw [classState] at hc
  rw [Fresh]
  cases hp : m.pc with
  | aclManager | fileWatcher | failed =>
    rw [hp] at hc
    cases hc
  | scheduled | compare | onChange | cancelled => exact h

theorem Fresh.event {e : ACLManager.Event} (h : Fresh m) (hr : m.Raises e)
    (hs : m.step e = some n) (hp : n.pc = m.pc) (hl : n.allowedSpiffeIds = m.allowedSpiffeIds)
    (hw : m.pc = .fileWatcher → n.file.lines = m.file.lines) : Fresh n := by
  cases hc : classState m with
  | initialized =>
    obtain ⟨h, ho⟩ := fresh_initialized h hc
    rw [classState, ← hp] at hc
    exact fresh_of_synced ⟨h.step (ho.noticed hr) hs, ho.step hr hs⟩ hc
  | uninitialized | erroneous =>
    rw [classState] at hc
    rw [Fresh, hp]
    cases hq : m.pc with
    | fileWatcher =>
      rw [Fresh, hq] at h
      exact (hl.trans h).trans (hw hq).symm
    | aclManager | failed => trivial
    | scheduled | compare | onChange | cancelled =>
      rw [hq] at hc
      cases hc

theorem Fresh.armed (h : Fresh m) (hp : m.pc = .fileWatcher) :
    Fresh { m with timeStamp := m.file.lastModified, pc := .scheduled } := by
  rw [Fresh, hp] at h
  refine ⟨fun _ => h, m.file.lastModified_le, fun _ hq => ?_⟩
  cases hq

theorem Fresh.step (h : Fresh c.shared.acl) (hC : Careful c e)
    (hs : (system jca).step c e = some d) : Fresh d.shared.acl := by
  cases Program.step_iff.1 hs with
  | spawn => exact h
  | run hi he =>
    cases exec_cases he with
    | refused | validated | unidentified | identified | named | found | absent | allowed => exact h
    | claimed => exact h
    | loaded => exact rfl
    | failed => trivial
    | armed _ hp => exact h.armed hp
  | @world g v _ _ hw =>
    cases v with
    | identity event =>
      obtain ⟨identity, _, rfl⟩ := Option.map_eq_some_iff.1 hw
      exact h
    | edit content mtime =>
      cases hw
      have ht : ACLManager.Raises g.acl (.edit content mtime) := hC.1
      exact h.event ht rfl rfl rfl fun hp => absurd hp hC.2
    | access present readable =>
      cases hw
      have ht : ACLManager.Raises g.acl (.access present readable) := trivial
      exact h.event ht rfl rfl rfl fun _ => rfl
    | poll =>
      obtain ⟨hc, hw⟩ := Option.ite_none_right_eq_some.1 hw
      obtain ⟨acl, hn, rfl⟩ := Option.map_eq_some_iff.1 hw
      obtain ⟨h, ho⟩ := fresh_initialized h hc
      exact fresh_of_synced ⟨h.next hn, ho.next hn⟩ (classState_next hc (ACLManager.next_cases hn))

theorem fresh (hi : (system jca).init s) (hp : (system jca).Path Careful s es c) :
    Fresh c.shared.acl := by
  apply System.Path.history (H := fun _ c => Fresh c.shared.acl) _ _ hp
  · intro es c e d h hC hs
    exact h.step hC hs
  · obtain ⟨⟨_, ha, _⟩, _⟩ := hi
    rw [Fresh, ha]
    trivial

/-- As long as the file is not touched, checks and pushes leave the list to the timer. -/
theorem quiet_cases (hc : classState c.shared.acl = .initialized) (hq : Quiet c e)
    (hs : (system jca).step c e = some d) :
    isPoll e = true ∧ c.shared.acl.next = some d.shared.acl ∨
      isPoll e = false ∧ d.shared.acl = c.shared.acl := by
  cases Program.step_iff.1 hs with
  | spawn => exact .inr ⟨rfl, rfl⟩
  | run hi he =>
    cases exec_cases he with
    | refused | validated | unidentified | identified | named | found | absent | allowed =>
      exact .inr ⟨rfl, rfl⟩
    | claimed => exact .inr ⟨rfl, rfl⟩
    | loaded _ hp | failed _ hp => cases (classState_aclManager hp).symm.trans hc
    | armed _ hp => cases (classState_fileWatcher hp).symm.trans hc
  | @world _ v _ _ hw =>
    cases v with
    | identity event =>
      obtain ⟨identity, _, rfl⟩ := Option.map_eq_some_iff.1 hw
      exact .inr ⟨rfl, rfl⟩
    | edit | access => exact hq.elim
    | poll =>
      obtain ⟨_, hw⟩ := Option.ite_none_right_eq_some.1 hw
      obtain ⟨acl, hn, rfl⟩ := Option.map_eq_some_iff.1 hw
      exact .inl ⟨rfl, hn⟩

/-- The list takes the steps of its own system only. -/
structure Quietly (m : ACLManager) (es : List Event) (n : ACLManager) : Prop where
  state : classState n = .initialized
  file : n.file = m.file
  run : ACLManager.system.run m (List.replicate (es.countP isPoll) .program) = some n

theorem Quietly.step (h : Quietly m es c.shared.acl) (hq : Quiet c e)
    (hs : (system jca).step c e = some d) : Quietly m (es ++ [e]) d.shared.acl := by
  obtain ⟨hc, hf, hr⟩ := h
  rcases quiet_cases hc hq hs with ⟨hp, hn⟩ | ⟨hp, hn⟩
  · refine ⟨classState_next hc (ACLManager.next_cases hn), (ACLManager.next_file hn).trans hf, ?_⟩
    have hs' : ACLManager.system.step c.shared.acl .program = some d.shared.acl := hn
    rw [List.countP_append, List.countP_singleton, hp, if_pos rfl, List.replicate_succ']
    exact ((System.Path.of_run hr).snoc hs' trivial).run
  · rw [hn]
    refine ⟨hc, hf, ?_⟩
    rw [List.countP_append, List.countP_singleton, hp, if_neg Bool.false_ne_true, Nat.add_zero]
    exact hr

theorem quietly (hc : classState c.shared.acl = .initialized)
    (hp : (system jca).Path Quiet c es d) : Quietly c.shared.acl es d.shared.acl :=
  System.Path.history (H := fun es d => Quietly c.shared.acl es d.shared.acl) Quietly.step
    ⟨hc, rfl, rfl⟩ hp

/-- The list is that of a file which can be read and is not touched. -/
structure Current (lines : List String) (m : ACLManager) : Prop where
  state : classState m = .initialized
  file : m.file.lines = lines
  list : m.allowedSpiffeIds = lines

theorem Current.next (h : Current lines m) (hn : ACLManager.Next m n) : Current lines n := by
  obtain ⟨hc, hf, hl⟩ := h
  refine ⟨classState_next hc hn, ?_, ?_⟩
  · cases hn <;> exact hf
  · cases hn with
    | loaded | reloaded => exact hf
    | rejected | stamped | polled | changed | unchanged | escaped => exact hl

theorem Current.step (h : Current lines c.shared.acl) (hq : Quiet c e)
    (hs : (system jca).step c e = some d) : Current lines d.shared.acl := by
  rcases quiet_cases h.state hq hs with ⟨_, hn⟩ | ⟨_, hn⟩
  · exact h.next (ACLManager.next_cases hn)
  · rw [hn]
    exact h

theorem Current.run (h : Current lines c.shared.acl) (hp : (system jca).Path Quiet c es d) :
    Current lines d.shared.acl :=
  System.Path.history (H := fun _ d => Current lines d.shared.acl) Current.step h hp

/-- A poll that is completed with the file untouched makes the list current. -/
theorem polled_current (hi : (system jca).init s) (hp : (system jca).Path Careful s es c)
    (hs : c.shared.acl.pc = .scheduled) (hf : c.shared.acl.file.canRead = true)
    (hq : (system jca).Path Quiet c es' d) (hm : .world .poll ∈ es')
    (hd : d.shared.acl.pc = .scheduled) : Current d.shared.acl.file.lines d.shared.acl := by
  have hc : classState c.shared.acl = .initialized := by
    rw [classState, hs]
  obtain ⟨hc', _, hr⟩ := quietly hc hq
  have hk : 0 < es'.countP isPoll := List.countP_pos_iff.2 ⟨_, hm, rfl⟩
  obtain ⟨k, hk⟩ := Nat.exists_eq_add_one_of_ne_zero (Nat.ne_of_gt hk)
  rw [hk] at hr
  exact ⟨hc', rfl, (fresh_initialized (fresh hi hp) hc).1.poll hs hf hr hd⟩

/-- What a check that is begun with a current list can have come to. -/
def Decided (n : Nat) (lines : List String) (i : Nat) (c : Check) : Prop :=
  n ≤ i → match c.point with
    | .validate | .checkSpiffeId | .thrown _ => True
    | .getSpiffeID w | .getInstance w _ | .isAllowed w _ => workloadId c.chain = .ok w
    | .returned => ∃ w ∈ lines, workloadId c.chain = .ok w

theorem Decided.exec (h : Decided n lines i c) (hl : m.acl.allowedSpiffeIds = lines)
    (hx : exec jca i m c = some (m', d)) : Decided n lines i d := by
  intro hn
  cases exec_cases hx with
  | refused | validated | unidentified | absent | failed => trivial
  | identified hw => exact hw
  | named | found | claimed | loaded | armed => exact h hn
  | @allowed chain w o =>
    rw [allowed]
    cases ha : m.acl.isAllowed w with
    | false => trivial
    | true =>
      refine ⟨w, ?_, h hn⟩
      rw [← hl]
      exact List.contains_iff_mem.1 ha

/-- After a completed poll, and as long as the file is then not touched, the list is that of the
file, and whoever a check then begun accepts is in the file. -/
theorem list_current (hi : (system jca).init s) (hp : (system jca).Path Careful s es c)
    (hs : c.shared.acl.pc = .scheduled) (hf : c.shared.acl.file.canRead = true)
    (hq : (system jca).Path Quiet c es' d) (hm : .world .poll ∈ es')
    (hd : d.shared.acl.pc = .scheduled) (hu : (system jca).Path Quiet d es'' u) :
    u.shared.acl.allowedSpiffeIds = u.shared.acl.file.lines ∧
      ∀ i chain, d.threads.length ≤ i → u.threads[i]? = some ⟨chain, .returned⟩ →
        ∃ w ∈ u.shared.acl.file.lines, workloadId chain = .ok w := by
  have hc := polled_current hi hp hs hf hq hm hd
  have hl := hc.run hu
  rw [hl.list, hl.file]
  refine ⟨rfl, fun i chain hn ha => ?_⟩
  have hD : Decided d.threads.length d.shared.acl.file.lines i ⟨chain, .returned⟩ := by
    apply Program.vouched (J := fun _ => Decided d.threads.length d.shared.acl.file.lines) id _ _ _
      hu ha
    · intro es t a _ _ _
      trivial
    · intro es t i l g m ht _ h hx
      exact h.exec (hc.run ht).list hx
    · intro i l hi hn
      cases List.getElem?_eq_none hn ▸ hi
  exact hD hn

/-- The file is rewritten, polled, and the new line accepted. -/
theorem list_current_sample : ∃ u : Config, u.shared.acl.file.lines = ["spiffe://b"] ∧
    u.threads[1]? = some ⟨[leaf "spiffe://b"], .returned⟩ ∧
    u.shared.acl.allowedSpiffeIds = u.shared.acl.file.lines ∧
      ∀ i chain, 1 ≤ i → u.threads[i]? = some ⟨chain, .returned⟩ →
        ∃ w ∈ u.shared.acl.file.lines, workloadId chain = .ok w := by
  have hp : (system .sample).Path Careful (sampleMachine "spiffe://a" true)
      (accepting ++ [.world (.edit "spiffe://b" 2)]) { afterAccepting with
        shared.acl.file := ⟨"spiffe://b", 2, true, true⟩ } := ⟨rfl, by decide⟩
  have hq : (system .sample).Path Quiet { afterAccepting with
      shared.acl.file := ⟨"spiffe://b", 2, true, true⟩ }
      [.world .poll, .world .poll, .world .poll] { afterAccepting with
        shared.acl := ⟨some "spiffe-id-whitelist", ⟨"spiffe://b", 2, true, true⟩, ["spiffe://b"], 2,
          .scheduled⟩ } := ⟨rfl, by decide⟩
  have hu : (system .sample).Path Quiet { afterAccepting with
      shared.acl := ⟨some "spiffe-id-whitelist", ⟨"spiffe://b", 2, true, true⟩, ["spiffe://b"], 2,
        .scheduled⟩ } [.spawn [leaf "spiffe://b"], .run 1, .run 1, .run 1, .run 1, .run 1] _ :=
    ⟨rfl, by decide⟩
  exact ⟨_, rfl, rfl, list_current (started_sample _ _) hp rfl rfl hq List.mem_cons_self rfl hu⟩

end SpiffeExample.PeerChecks

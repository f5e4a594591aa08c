import SpiffeExample.RestarterOrder

namespace HotRestarter
set_option autoImplicit true

open Interrupts Transition

variable {r : Setting} {s : State}

def Setting.Leads (r : Setting) (s : State) : Outcome Frame Exn → Prop
  | .goto f => r.At s f
  | .ret => AtRest s
  | .raise e => r.Raised s e

theorem pids_setList : (s.setList s.pidList pids).pids = pids :=
  Function.update_self ..

theorem fork_life (h : pid < s.children.length) : s.fork.life pid = s.life pid := by
  rw [State.life, State.life, State.fork, List.getElem?_append_left h]

theorem fork_life_self : s.fork.life s.children.length = some .running := by
  rw [State.life, State.fork, List.getElem?_concat_length]
  rfl

theorem fork_life_reaped (h : s.fork.life pid = some (.reaped status)) :
    s.life pid = some (.reaped status) := by
  rcases Nat.lt_trichotomy pid s.children.length with hl | rfl | hl
  · rwa [fork_life hl] at h
  · rw [fork_life_self] at h
    cases h
  · rw [State.life, State.fork, List.getElem?_eq_none] at h
    · cases h
    · rw [List.length_append]
      exact hl

theorem Watching.fork (h : Watching s 1) (he : s.environ = some s.children.length) :
    Forked s.fork s.children.length where
  tracked := by
    rw [State.unreaped_fork, ← h.tracked]
    rfl
  calm := by
    refine ⟨h.calm.1, fun hp pid hm => ?_⟩
    rw [State.unreaped_fork, List.mem_append, List.mem_singleton] at hm
    rcases hm with hm | rfl
    · rw [fork_life (State.killable_lt (State.mem_unreaped.1 hm))]
      exact h.calm.2 hp pid hm
    · exact fork_life_self
  numbered := by
    have hn := h.numbered
    rw [Numbered] at hn ⊢
    simp only [State.fork, List.map_append, hn, List.length_append, List.length_singleton,
      List.range_succ, List.map_cons, List.map_nil, he]
  next := by
    rw [State.fork, List.length_append]
    exact h.next
  normal := fun pid status hl => h.normal pid status (fork_life_reaped hl)

theorem Forked.append (h : Forked s pid) : AtRest (s.setList s.pidList (s.pids ++ [pid])) where
  watching :=
    { tracked := pids_setList.trans h.tracked.symm
      calm := h.calm
      numbered := h.numbered
      next := h.next
      normal := h.normal }
  nonempty := by
    rw [pids_setList]
    exact List.append_ne_nil_of_right_ne_nil _ nofun

theorem take_succ_sent {pids : List Nat} (hp : pids[i]? = some pid)
    (hs : Sent s g (pids.take i)) :
    Sent { s with kills := s.kills ++ [(pid, g)] } g (pids.take (i + 1)) := by
  intro q hq
  rw [List.take_add_one, hp, List.mem_append] at hq
  rcases hq with hq | hq
  · exact List.mem_append_left _ (hs q hq)
  · cases List.mem_singleton.1 hq
    exact List.mem_append_right _ (List.mem_singleton_self _)

theorem Setting.Looping.next (h : r.Looping s l) (hi : s.pids[i]? = none)
    (hs : Sent s l.signal (s.pids.take i)) : r.Leads s l.next := by
  rw [List.take_of_length_le (List.getElem?_eq_none_iff.1 hi)] at hs
  cases l with
  | usr1 => exact h
  | term =>
    refine ⟨h.1, h.2, ?_⟩
    rw [← h.1]
    exact hs
  | kill a =>
    refine ⟨?_, h.2⟩
    rw [Killed, ← h.1]
    exact hs

theorem Setting.Cause.next (h : r.Cause s a) (hk : Killed s) (hp : s.pids = []) :
    r.At s a.next := by
  cases a with
  | sigchld => exact ⟨hp, hk, h⟩
  | exit code =>
    rcases h with ⟨hv, rfl⟩ | ⟨hv, rfl⟩
    · exact .forced hv hk
    · exact .killed hv hk

theorem normal_iff : Normal s ↔ ¬ Failed s := by
  simp only [Normal, Failed, not_exists, not_and, Bool.not_eq_true]

theorem Setting.Sweeping.next (h : r.Sweeping s s.pids w) (hu : s.pids = s.unreaped) :
    r.At s w.next := by
  match w with
  | .chld true =>
    obtain ⟨_, _, _, _, hf⟩ := h
    exact ⟨nofun, hu, hf.1 rfl⟩
  | .chld false =>
    obtain ⟨hh, hr, hn, he, hf⟩ := h
    have hc : Calm s := by
      refine ⟨hh, ?_⟩
      rw [← hu]
      exact hr
    exact ⟨hu, hc, hn, he, normal_iff.2 (fun h => Bool.false_ne_true (hf.2 h))⟩
  | .term _ => exact ⟨hu, h⟩

theorem reap_life (hz : s.life pid = some (.zombie status)) :
    (s.setLife pid (.reaped status)).life q =
      if pid = q then some (.reaped status) else s.life q := by
  rw [State.life_setLife]
  by_cases hq : pid = q
  · rw [if_pos hq, if_pos hq, ← hq, hz]
    rfl
  · rw [if_neg hq, if_neg hq]

theorem reap_failed (hz : s.life pid = some (.zombie status)) :
    Failed (s.setLife pid (.reaped status)) ↔ Failed s ∨ abnormal status = true := by
  apply Iff.intro
  · rintro ⟨q, st, hl, ha⟩
    rw [reap_life hz] at hl
    split at hl
    · cases hl
      exact .inr ha
    · exact .inl ⟨q, st, hl, ha⟩
  · rintro (⟨q, st, hl, ha⟩ | ha)
    · have hq : pid ≠ q := by
        rintro rfl
        cases hz.symm.trans hl
      exact ⟨q, st, (reap_life hz).trans ((if_neg hq).trans hl), ha⟩
    · exact ⟨pid, status, (reap_life hz).trans (if_pos rfl), ha⟩

theorem Setting.Sweeping.running (h : r.Sweeping s kept w) (hl : s.life pid = some .running) :
    r.Sweeping s (kept ++ [pid]) w := by
  cases w with
  | chld kill =>
    obtain ⟨hh, hr, h⟩ := h
    refine ⟨hh, fun hp q hq => ?_, h⟩
    rw [List.mem_append, List.mem_singleton] at hq
    rcases hq with hq | rfl
    · exact hr hp q hq
    · exact hl
  | term retries => exact h

theorem Setting.Sweeping.reap (h : r.Sweeping s kept w) (hz : s.life pid = some (.zombie status))
    (hn : pid ∉ kept) : r.Sweeping (s.setLife pid (.reaped status)) kept (w.collect status) := by
  cases w with
  | chld kill =>
    obtain ⟨hh, hr, hm, he, hk⟩ := h
    refine ⟨hh, fun hp q hq => ?_, ?_, he.trans State.length_setLife.symm, ?_⟩
    · rw [reap_life hz, if_neg (fun he : pid = q => hn (he ▸ hq))]
      exact hr hp q hq
    · rw [Numbered, State.epochs_setLife, State.length_setLife]
      exact hm
    · rw [reap_failed hz, ← hk, Bool.or_eq_true]
  | term retries =>
    refine ⟨h.1, fun q hq => h.2 q ?_⟩
    rw [State.unreaped_reap] at hq
    exact List.mem_of_mem_erase hq

theorem waitpid_running (h : s.life pid = some .running) : s.waitpid pid = .ok none := by
  rw [State.waitpid, h]

theorem waitpid_zombie (h : s.life pid = some (.zombie status)) :
    s.waitpid pid = .ok (some (s.setLife pid (.reaped status), status)) := by
  rw [State.waitpid, h]

theorem exec_check_running (h : s.life pid = some .running) :
    exec (.check w (pid :: pids)) s b = some (s, .goto (.check w pids)) := by
  rw [exec, waitpid_running h]

theorem exec_check_zombie (h : s.life pid = some (.zombie status)) :
    exec (.check w (pid :: pids)) s b =
      some (s.setLife pid (.reaped status), .goto (.remove w pid status pids)) := by
  rw [exec, waitpid_zombie h]

theorem nodup_split (hu : s.pids = s.unreaped) (hp : s.pids = kept ++ pid :: pids) :
    pid ∉ kept ∧ s.unreaped.erase pid = kept ++ pids := by
  rw [← hu, hp]
  have hd : (kept ++ pid :: pids).Nodup := by
    rw [← hp, hu]
    exact State.nodup_unreaped
  have hn : pid ∉ kept := by
    intro hm
    exact (List.nodup_append.1 hd).2.2 pid hm pid List.mem_cons_self rfl
  exact ⟨hn, by rw [List.erase_append_right _ hn, List.erase_cons_head]⟩

theorem check_leads (h : r.At s (.check w (pid :: pids)))
    (he : exec (.check w (pid :: pids)) s b = some (t, o)) : r.Leads t o := by
  obtain ⟨hu, kept, hp, hw⟩ := h
  have hm : pid ∈ s.unreaped := by
    rw [← hu, hp]
    exact List.mem_append_right _ List.mem_cons_self
  rcases State.killable_iff.1 (State.mem_unreaped.1 hm) with hl | ⟨status, hl⟩
  · cases (exec_check_running hl).symm.trans he
    refine ⟨hu, kept ++ [pid], ?_, hw.running hl⟩
    rw [hp, List.append_assoc, List.singleton_append]
  · cases (exec_check_zombie hl).symm.trans he
    obtain ⟨hn, hd⟩ := nodup_split hu hp
    exact ⟨kept, hp, hn, State.unreaped_reap.trans hd, hw.reap hl hn⟩

theorem Setting.Sweeping.setList (h : r.Sweeping s kept w) :
    r.Sweeping (s.setList list pids) kept w := by
  cases w with
  | chld kill => exact h
  | term retries => exact h

theorem removing_leads (h : r.At s (.removing w list pid status pids))
    (he : exec (.removing w list pid status pids) s b = some (t, o)) : r.Leads t o := by
  obtain ⟨rfl, kept, hp, hn, hu, hw⟩ := h
  have hm : pid ∈ s.lists s.pidList := by
    rw [← State.pids, hp]
    exact List.mem_append_right _ List.mem_cons_self
  have hd : (s.lists s.pidList).erase pid = kept ++ pids := by
    rw [← State.pids, hp, List.erase_append_right _ hn, List.erase_cons_head]
  rw [exec, if_pos hm, hd] at he
  cases he
  exact ⟨pids_setList.trans hu.symm, kept, pids_setList, hw.setList⟩

theorem trying_leads (h : r.At s (.trying l list index pid))
    (he : exec (.trying l list index pid) s b = some (t, o)) : r.Leads t o := by
  obtain ⟨hl, hp, i, rfl, hg, hs⟩ := h
  have hk : r.At { s with kills := s.kills ++ [(pid, l.signal)] } (.tried l list (i + 1)) :=
    ⟨hl, Later.kill.looping hp, take_succ_sent hg hs⟩
  simp only [exec] at he
  split at he
  · cases he
    exact hk
  · cases he
    exact hk

theorem iterate_leads (h : r.At s (.iterate l list index))
    (he : exec (.iterate l list index) s b = some (t, o)) : r.Leads t o := by
  obtain ⟨rfl, hl, hs⟩ := h
  rw [exec, ← State.pids] at he
  cases hp : s.pids[index]? with
  | some pid =>
    simp only [hp] at he
    cases he
    exact ⟨rfl, hl, index, rfl, hp, hs⟩
  | none =>
    simp only [hp] at he
    cases he
    exact hl.next hp hs

theorem Setting.Testing.empty (h : r.Testing s w) (hp : s.pids = []) : r.At s w.empty := by
  match w with
  | .chld true => exact .failed h.2.1 h.2.2
  | .chld false => exact .done (h.tracked.symm.trans hp) h.normal
  | .term _ => exact .terminated h.2.1 (h.1.symm.trans hp)

theorem Setting.Testing.nonempty (h : r.Testing s w) (hp : s.pids ≠ []) :
    r.Leads s w.nonempty := by
  match w with
  | .chld true => exact absurd h.1 hp
  | .chld false => exact ⟨h, hp⟩
  | .term _ => exact h

theorem tested_leads (h : r.At s (.tested w list))
    (he : exec (.tested w list) s b = some (t, o)) : r.Leads t o := by
  obtain ⟨rfl, ht⟩ := h
  rw [exec, ← State.pids] at he
  by_cases hp : s.pids = []
  · rw [if_pos hp] at he
    cases he
    exact ht.empty hp
  · rw [if_neg hp] at he
    cases he
    exact ht.nonempty hp

theorem Setting.leads (r : Setting) (h : r.At s f) (hb : b = false → r.failures = true)
    (he : exec f s b = some (t, o)) : r.Leads t o := by
  cases f with
  | sleep =>
    cases he
    exact h
  | environ c =>
    cases he
    exact ⟨h, rfl⟩
  | putenv c epoch =>
    cases he
    obtain ⟨h, rfl⟩ := h
    exact ⟨⟨h.tracked, h.calm, h.numbered, h.next, h.normal⟩, rfl⟩
  | increment c =>
    cases he
    exact ⟨h.1, h.2, rfl⟩
  | store c epoch =>
    cases he
    obtain ⟨h, hn, rfl⟩ := h
    have hl : s.restartEpoch = s.children.length := h.next
    exact ⟨⟨h.tracked, h.calm, h.numbered, congrArg (· + 1) hl, h.normal⟩, by rw [← hl]; exact hn⟩
  | fork c =>
    rw [exec] at he
    split at he
    · cases he
      exact h.1.fork h.2
    · next hf =>
      cases he
      exact hb (Bool.not_eq_true _ ▸ hf)
  | append c pid =>
    cases he
    exact ⟨rfl, h⟩
  | appending c list pid =>
    cases he
    obtain ⟨rfl, h⟩ := h
    cases c with
    | main => exact h.append
    | sighup => exact h.append
  | uninstall l =>
    cases he
    obtain ⟨hl, h⟩ := h
    cases l with
    | usr1 => exact absurd rfl hl
    | term => exact h
    | kill a =>
      cases a with
      | sigchld => exact h
      | exit code => exact h
  | loop l =>
    cases he
    exact ⟨rfl, h, nofun⟩
  | iterate l list index => exact iterate_leads h he
  | chosen l list index pid =>
    cases he
    exact h
  | trying l list index pid => exact trying_leads h he
  | tried l list index =>
    cases he
    exact h
  | clear a =>
    cases he
    have hc : r.Cause { s.setList (s.pidList + 1) [] with pidList := s.pidList + 1 } a := by
      cases a with
      | sigchld => exact h.2
      | exit code => exact h.2
    exact hc.next h.1 (Function.update_self ..)
  | snapshot w =>
    cases he
    exact ⟨rfl, h⟩
  | copy w list =>
    cases he
    obtain ⟨rfl, hu, hw⟩ := h
    exact ⟨hu, [], rfl, hw⟩
  | check w pids =>
    cases pids with
    | nil =>
      cases he
      obtain ⟨hu, kept, hp, hw⟩ := h
      rw [List.append_nil] at hp
      exact Setting.Sweeping.next (hp ▸ hw) hu
    | cons pid pids => exact check_leads h he
  | remove w pid status pids =>
    cases he
    exact ⟨rfl, h⟩
  | removing w list pid status pids => exact removing_leads h he
  | test w =>
    cases he
    exact ⟨rfl, h⟩
  | tested w list => exact tested_leads h he
  | round retries =>
    rw [exec] at he
    split at he
    · cases he
      exact h
    · cases he
      exact ⟨h.1, .inl ⟨h.2.1, rfl⟩⟩
  | pause retries =>
    cases he
    exact h
  | exit code =>
    cases he
    exact h

/-- The runs of one setting, seen from the frame that is not `resting`. -/
def Setting.runs (r : Setting) (nested : Bool) : Section State Frame Exn where
  plain f := f.resting nested = true
  I := AtRest
  K := r.At
  X := r.Raised

def Setting.ok (r : Setting) : Event Bool Signal Outside → Prop
  | .signal .sigterm => r.terms = true
  | .exec false => r.failures = true
  | _ => True

theorem resting_atRest (hf : f.resting nested = true) (h : r.At s f) : AtRest s := by
  rw [Frame.resting, Bool.or_eq_true, decide_eq_true_eq, Bool.and_eq_true] at hf
  rcases hf with rfl | ⟨_, hf⟩
  · exact h
  · match f, hf with
    | .loop .usr1, _ => exact h
    | .iterate .usr1 _ _, _ => exact h.2.1
    | .chosen .usr1 _ _ _, _ => exact h.2.1
    | .trying .usr1 _ _ _, _ => exact h.2.1
    | .tried .usr1 _ _, _ => exact h.2.1

theorem exec_raise (he : exec f s b = some (t, .raise e)) : caught f e = none := by
  cases f with
  | trying l list index pid =>
    simp only [exec] at he
    split at he <;> cases he
  | tried l list index => cases he
  | _ => rfl

theorem Setting.leaves (h : r.At s f) (hb : b = false → r.failures = true)
    (he : exec f s b = some (t, o)) :
    (program v).Leaves (r.runs nested) f (t, o) := by
  have hl := r.leads h hb he
  cases o with
  | goto g =>
    by_cases hg : g.resting nested = true
    · exact .inl ⟨hg, resting_atRest hg hl⟩
    · exact .inr ⟨hg, hl⟩
  | ret => exact hl
  | raise e => exact ⟨hl, exec_raise he⟩

def Outcome.Forwarding : Outcome Frame Exn → Prop
  | .goto g => g.forwarding = true
  | .ret => True
  | .raise _ => False

theorem forwarding_exec (hf : f.forwarding = true) (he : exec f s b = some (t, o)) :
    Outcome.Forwarding o ∧ Later s t := by
  match f, hf with
  | .loop .usr1, _ =>
    cases he
    exact ⟨rfl, .refl⟩
  | .iterate .usr1 list index, _ =>
    rw [exec] at he
    split at he
    · cases he
      exact ⟨rfl, .refl⟩
    · cases he
      exact ⟨trivial, .refl⟩
  | .chosen .usr1 _ _ _, _ =>
    cases he
    exact ⟨rfl, .refl⟩
  | .trying .usr1 _ _ _, _ =>
    simp only [exec] at he
    split at he
    · cases he
      exact ⟨rfl, .kill⟩
    · cases he
      exact ⟨rfl, .kill⟩
  | .tried .usr1 _ _, _ =>
    cases he
    exact ⟨rfl, .refl⟩

theorem Later.keeps (h : Later s t) : (r.runs nested).Keeps s t :=
  ⟨h.atRest, fun _ => h.at⟩

theorem resting_exec (hf : f.resting nested = true) (he : exec f s b = some (t, o)) :
    (r.runs nested).Plainly o ∧ (r.runs nested).Keeps s t := by
  have hr := hf
  rw [Frame.resting, Bool.or_eq_true, decide_eq_true_eq, Bool.and_eq_true] at hf
  rcases hf with rfl | ⟨ho, hf⟩
  · cases he
    exact ⟨hr, Later.refl.keeps⟩
  · obtain ⟨hg, hl⟩ := forwarding_exec hf he
    refine ⟨?_, hl.keeps⟩
    cases o with
    | goto g =>
      change Frame.resting nested g = true
      rw [Frame.resting, ho, Bool.true_and, Bool.or_eq_true]
      exact .inr hg
    | ret => trivial
    | raise e => exact hg

theorem AtRest.entered (h : AtRest s) (hg : r.ok (.signal g))
    (he : enter r.version g s = some (t, f)) : r.At t f := by
  obtain ⟨⟨hu, hc, hn, hx, hm⟩, hp⟩ := h
  cases g with
  | sigterm =>
    cases hv : r.version with
    | helper =>
      rw [hv] at he
      cases he
      exact ⟨nofun, hu, hg, hv⟩
    | cadfael =>
      rw [hv] at he
      cases he
      exact ⟨nofun, hu, .inr ⟨⟨hg, hv⟩, rfl⟩⟩
  | sighup =>
    cases he
    exact ⟨hu, hc, hn, hx, hm⟩
  | sigusr1 =>
    cases he
    exact ⟨⟨hu, hc, hn, hx, hm⟩, hp⟩
  | sigchld =>
    rw [enter, Option.ite_none_right_eq_some] at he
    cases he.2
    have hf : ¬ Failed { s with pending := false } := normal_iff.1 hm
    exact ⟨hu, hc.1, fun _ _ h => absurd h List.not_mem_nil, hn, hx,
      iff_of_false Bool.false_ne_true hf⟩
  | sigkill => cases he

theorem world_later (h : world x s = some t) : Later s t := by
  cases x with
  | exits pid status =>
    rw [world, Option.ite_none_right_eq_some] at h
    cases h.2
    exact .exits h.1
  | stopped =>
    cases h
    exact .arrive

theorem resting_enter (hf : f.resting nested = true) (he : enter v g s = some (t, f)) : t = s := by
  cases g with
  | sigchld =>
    rw [enter, Option.ite_none_right_eq_some] at he
    cases he.2
    cases nested with
    | false => cases hf
    | true => cases hf
  | sigterm =>
    cases v with
    | helper =>
      cases he
      rfl
    | cadfael =>
      cases he
      rfl
  | sighup | sigusr1 =>
    cases he
    rfl
  | sigkill => cases he

theorem Setting.sound (r : Setting) (nested : Bool) :
    (program r.version).Sound (r.runs nested) r.ok where
  plain := resting_exec
  exec := by
    intro f s b q hf h hb he
    apply Setting.leaves h ?_ he
    rintro rfl
    exact hb
  signal := by
    intro g s t h hg he
    by_cases hf : h.resting nested = true
    · cases resting_enter hf he
      exact .inl ⟨hf, Later.refl.keeps⟩
    · exact .inr ⟨hf, fun hs => hs.entered hg he⟩
  world hw := ⟨(world_later hw).keeps, fun _ => (world_later hw).raised⟩

end HotRestarter

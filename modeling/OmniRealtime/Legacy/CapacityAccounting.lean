import OmniRealtime.Legacy.LegacyRouter
import OmniRealtime.Lib.Occupancy

/-!
# Capacity of the legacy router

An upstream counts a client from the moment its connection is open. The place was chosen before, so
several clients may have chosen the last one. A handler that ends by an exception that nobody
expects, or is cancelled, keeps its place and leaves its socket open, unless it is pumping.

1. `Accounted`: the active counts and the open sockets.
2. `keepsAccount`: the condition. `Inv.step`: what every step keeps.
-/

namespace OmniRealtime

open List Option RoutedClient

/-- The upstream that the client is probing or bound to. -/
def ClientPhase.boundTo : ClientPhase → Option ℕ
  | .starting up _ | .receiving up _ | .replying up | .pumping up => some up
  | _ => none

def ClientPhase.picked : ClientPhase → Option ℕ
  | .connecting up _ => some up
  | phase => phase.boundTo

def RoutedClient.boundTo (client : RoutedClient) : Option ℕ := client.phase.boundTo

/-- The handler does not end while its upstream socket is open and uncounted for. -/
def ClientPhase.cancellable : ClientPhase → Bool
  | .starting _ _ | .receiving _ _ | .replying _ | .closingClient => false
  | _ => true

namespace LegacyRouter

variable {s t : LegacyRouter} {n up : ℕ} {tried : List ℕ} {client new : RoutedClient}
  {act : RouterEvent}

structure Accounted (s : LegacyRouter) : Prop where
  active : ∀ up u, s.upstreams[up]? = some u →
    u.active = occupancy RoutedClient.boundTo s.clients up
  nonneg : ∀ u ∈ s.upstreams, 0 ≤ u.active
  capacity : ∀ u ∈ s.upstreams, u.active = 0 ∨ u.active ≤ u.capacity
  closed : ∀ client ∈ s.clients, client.phase = .gone → client.openSockets = []

/-! ## The condition -/

/-- A connection is open while its upstream still has free capacity. No reply raises an exception
    that is not expected. A handler is cancelled only where it has no open socket, or is pumping. -/
def keepsAccount (s : LegacyRouter) : RouterEvent → Bool
  | .connected n true =>
    (s.clients[n]?).all fun client =>
      match client.phase with
      | .connecting up _ => (s.upstreams[up]?).all fun u => 0 < u.free
      | _ => true
  | .reply _ reply => reply.verdict ≠ .raised
  | .cancel n => (s.clients[n]?).all fun client => client.phase.cancellable
  | _ => true

/-! ## The invariant -/

structure Inv (s : LegacyRouter) : Prop where
  active : ∀ up u, s.upstreams[up]? = some u →
    u.active = occupancy RoutedClient.boundTo s.clients up
  capacity : ∀ u ∈ s.upstreams, u.active = 0 ∨ u.active ≤ u.capacity
  picked : ∀ client ∈ s.clients, ∀ up, client.phase.picked = some up → up < s.upstreams.length
  closed : ∀ client ∈ s.clients, client.boundTo = none → client.phase ≠ .closingClient →
    client.openSockets = []

namespace Inv

theorem toAccounted (h : s.Inv) : s.Accounted where
  active := h.active
  nonneg := by
    intro u hu
    obtain ⟨up, hup⟩ := mem_iff_getElem?.mp hu
    rw [h.active up u hup]
    exact occupancy_nonneg
  capacity := h.capacity
  closed := by
    intro client hc hgone
    exact h.closed client hc (by rw [boundTo, hgone]; rfl) (by rw [hgone]; nofun)

theorem initial (capacities : List ℤ) :
    Inv { upstreams := capacities.map fun capacity => { capacity := capacity } } where
  active := by
    intro up u hup
    obtain ⟨capacity, -, rfl⟩ := mem_map.mp (mem_of_getElem? hup)
    rfl
  capacity := by
    intro u hu
    obtain ⟨capacity, -, rfl⟩ := mem_map.mp hu
    exact .inl rfl
  picked := by rintro _ ⟨⟩
  closed := by rintro _ ⟨⟩

section

variable (h : s.Inv) (hn : s.clients[n]? = some client)
include h hn

theorem setClient (hplace : new.boundTo = client.boundTo)
    (hpicked : ∀ up, new.phase.picked = some up → up < s.upstreams.length)
    (hclosed : new.boundTo = none → new.phase ≠ .closingClient → new.openSockets = []) :
    (s.setClient n new).Inv where
  active := by
    intro up u hup
    rw [h.active up u hup]
    exact (occupancy_stay hn hplace).symm
  capacity := h.capacity
  picked := by
    intro client hc
    rcases mem_or_eq_of_mem_set hc with hc | rfl
    · exact h.picked client hc
    · exact hpicked
  closed := by
    intro client hc
    rcases mem_or_eq_of_mem_set hc with hc | rfl
    · exact h.closed client hc
    · exact hclosed

theorem move {change : ℤ}
    (hchange : ∀ k, presence new.boundTo k - presence client.boundTo k = if up = k then change else 0)
    (hcapacity : ∀ u, s.upstreams[up]? = some u →
      u.active + change = 0 ∨ u.active + change ≤ u.capacity)
    (hpicked : ∀ up, new.phase.picked = some up → up < s.upstreams.length)
    (hclosed : new.boundTo = none → new.phase ≠ .closingClient → new.openSockets = []) :
    ((s.count up change).setClient n new).Inv where
  active := by
    intro k u hk
    obtain ⟨old, hold, rfl⟩ := map_eq_some_iff.mp ((getElem?_modify _ _ _ _).symm.trans hk)
    have hact := h.active k old hold
    have hset : occupancy boundTo (s.clients.set n new) k =
        occupancy boundTo s.clients k + (if up = k then change else 0) := by
      rw [occupancy_set hn, ← hchange k]
      omega
    refine Eq.trans ?_ hset.symm
    split_ifs with hup <;> simp [hact]
  capacity := by
    intro u hu
    obtain ⟨k, hk⟩ := mem_iff_getElem?.mp hu
    obtain ⟨old, hold, rfl⟩ := map_eq_some_iff.mp ((getElem?_modify _ _ _ _).symm.trans hk)
    split_ifs with hup
    · subst hup
      exact hcapacity old hold
    · exact h.capacity old (mem_of_getElem? hold)
  picked := by
    intro client hc up' hup'
    refine Nat.lt_of_lt_of_eq ?_ (length_modify _ s.upstreams up).symm
    rcases mem_or_eq_of_mem_set hc with hc | rfl
    · exact h.picked client hc up' hup'
    · exact hpicked up' hup'
  closed := by
    intro client hc
    rcases mem_or_eq_of_mem_set hc with hc | rfl
    · exact h.closed client hc
    · exact hclosed

theorem leave (hplace : client.boundTo = some up) (hout : new.boundTo = none)
    (hpicked : new.phase.picked = none)
    (hclosed : new.phase ≠ .closingClient → new.openSockets = []) :
    ((s.count up (-1)).setClient n new).Inv := by
  refine h.move hn (fun k => ?_) (fun u hu => ?_) (by rw [hpicked]; nofun) fun _ => hclosed
  · rw [hout, hplace, presence_none, presence]
    by_cases hk : up = k <;> simp [hk]
  · have hact := h.active up u hu
    have hcnd : presence client.boundTo up ≤ occupancy boundTo s.clients up :=
      presence_le_occupancy hn
    rw [hplace, presence, if_pos rfl, ← hact] at hcnd
    rcases h.capacity u (mem_of_getElem? hu) with hzero | hle
    · rw [hzero] at hcnd
      exact absurd hcnd (by decide)
    · exact .inr (by omega)

theorem enter (hout : client.boundTo = none) (hplace : new.boundTo = some up)
    (hpicked : new.phase.picked = some up) (hup : up < s.upstreams.length)
    (hfree : ∀ u, s.upstreams[up]? = some u → 0 < u.free) :
    ((s.count up 1).setClient n new).Inv := by
  refine h.move hn (fun k => ?_) (fun u hu => ?_) (fun k hk => ?_) (by rw [hplace]; nofun)
  · rw [hout, hplace, presence_none, presence]
    by_cases hk : up = k <;> simp [hk]
  · have hfree := hfree u hu
    rw [LegacyUpstream.free] at hfree
    exact .inr (by omega)
  · rw [hpicked] at hk
    cases hk
    exact hup

end

theorem pick_lt (hpick : s.pick tried = some up) : up < s.upstreams.length := by
  have hmem := mem_of_getElem? hpick
  have hcand := (mem_filter.mp (mem_filter.mp hmem).1).1
  exact mem_range.mp hcand

section

variable (h : s.Inv) (hn : s.clients[n]? = some client)
include h hn

theorem tryNext (hout : client.boundTo = none) (tried : List ℕ) : (s.tryNext n tried).Inv := by
  have hrefuse : (s.setClient n { phase := .refusing }).Inv :=
    h.setClient hn hout.symm (by rintro _ ⟨⟩) fun _ _ => rfl
  unfold LegacyRouter.tryNext
  split
  · split
    · rename_i up hpick
      have hup := pick_lt hpick
      have hcounter : Inv { s with rrCounter := s.rrCounter + 1 } := { h with }
      refine hcounter.setClient hn hout.symm (fun k hk => ?_) fun _ _ => rfl
      cases hk
      exact hup
    · exact hrefuse
  · exact hrefuse

theorem abandon (hout : client.boundTo = none) (hp : client.phase ≠ .closingClient)
    : (s.abandon n client).Inv :=
  h.setClient hn hout.symm (by rintro _ ⟨⟩) fun _ _ =>
    h.closed client (mem_of_getElem? hn) hout hp

theorem onReply (hp : client.phase = .receiving up tried) {reply : UpstreamReply}
    (hrpl : reply.verdict ≠ .raised) : (s.onReply n up tried client reply).Inv := by
  have hplace : client.boundTo = some up := by rw [boundTo, hp]; rfl
  unfold LegacyRouter.onReply
  split
  · exact h
  · refine h.setClient hn hplace.symm (fun k hk => ?_) (by rintro ⟨⟩)
    exact h.picked client (mem_of_getElem? hn) k (by rw [hp]; exact hk)
  · exact h.leave hn hplace rfl rfl fun _ => rfl
  · exact h.leave hn hplace rfl rfl fun _ => rfl
  · rename_i hraised
    exact absurd hraised hrpl

theorem onCancel (hcancel : client.phase.cancellable = true) : (s.onCancel n client).Inv := by
  unfold LegacyRouter.onCancel
  split
  · rename_i up hp
    exact h.leave hn (by rw [boundTo, hp]; rfl) rfl rfl fun hne => absurd rfl hne
  · rename_i hpumping
    refine h.abandon hn ?_ (fun hclg => by rw [hclg] at hcancel; cases hcancel)
    cases hp : client.phase with
    | pumping up => exact absurd hp (hpumping up)
    | starting up tried | receiving up tried | replying up => rw [hp] at hcancel; cases hcancel
    | _ => rw [boundTo, hp]; rfl

end

theorem start (h : s.Inv) :
    (LegacyRouter.tryNext { s with clients := s.clients ++ [{ phase := .refusing }] }
      s.clients.length []).Inv := by
  have hcome : Inv { s with clients := s.clients ++ [{ phase := .refusing }] } := {
    active := by
      intro up u hup
      rw [h.active up u hup]
      exact (occupancy_concat.trans (add_zero _)).symm
    capacity := h.capacity
    picked := by
      intro client hc
      rcases mem_append.mp hc with hc | hc
      · exact h.picked client hc
      · obtain rfl := mem_singleton.mp hc
        nofun
    closed := by
      intro client hc
      rcases mem_append.mp hc with hc | hc
      · exact h.closed client hc
      · obtain rfl := mem_singleton.mp hc
        exact fun _ _ => rfl }
  exact hcome.tryNext getElem?_concat_length rfl []

theorem step (h : s.Inv) (hst : routerStep s act = some t) (hkeeps : s.keepsAccount act = true) :
    t.Inv := by
  cases act with
  | start =>
    cases hst
    exact h.start
  | connected n ok =>
    obtain ⟨client, hn, hst⟩ := bind_eq_some_iff.mp hst
    split at hst
    · rename_i up tried hp
      cases hst
      have hout : client.boundTo = none := by rw [boundTo, hp]; rfl
      have hup := h.picked client (mem_of_getElem? hn) up (by rw [hp]; rfl)
      cases ok with
      | true =>
        simp only [keepsAccount, hn, hp, all_some] at hkeeps
        refine h.enter hn hout rfl rfl hup fun u hu => ?_
        rw [hu] at hkeeps
        exact of_decide_eq_true hkeeps
      | false => exact h.tryNext hn hout tried
    · cases hst
  | startSent n ok =>
    obtain ⟨client, hn, hst⟩ := bind_eq_some_iff.mp hst
    split at hst
    · rename_i up tried hp
      cases hst
      have hplace : client.boundTo = some up := by rw [boundTo, hp]; rfl
      cases ok with
      | true =>
        refine h.setClient hn hplace.symm (fun k hk => ?_) (by rintro ⟨⟩)
        exact h.picked client (mem_of_getElem? hn) k (by rw [hp]; exact hk)
      | false => exact h.leave hn hplace rfl rfl fun _ => rfl
    · cases hst
  | reply n reply =>
    obtain ⟨client, hn, hst⟩ := bind_eq_some_iff.mp hst
    split at hst
    · rename_i up tried hp
      cases hst
      exact h.onReply hn hp (of_decide_eq_true hkeeps)
    · cases hst
  | probeClosed n =>
    obtain ⟨client, hn, hst⟩ := bind_eq_some_iff.mp hst
    split at hst
    · rename_i tried hp
      cases hst
      exact h.tryNext hn (by rw [boundTo, hp]; rfl) tried
    · cases hst
  | replied n ok =>
    obtain ⟨client, hn, hst⟩ := bind_eq_some_iff.mp hst
    split at hst
    · rename_i up hp
      cases hst
      have hplace : client.boundTo = some up := by rw [boundTo, hp]; rfl
      cases ok with
      | true =>
        refine h.setClient hn hplace.symm (fun k hk => ?_) (by rintro ⟨⟩)
        exact h.picked client (mem_of_getElem? hn) k (by rw [hp]; exact hk)
      | false => exact h.leave hn hplace rfl rfl fun _ => rfl
    · cases hst
  | pumpEnds n =>
    obtain ⟨client, hn, hst⟩ := bind_eq_some_iff.mp hst
    split at hst
    · rename_i up hp
      cases hst
      exact h.leave hn (by rw [boundTo, hp]; rfl) rfl rfl fun hne => absurd rfl hne
    · cases hst
  | clientClosed n =>
    obtain ⟨client, hn, hst⟩ := bind_eq_some_iff.mp hst
    split at hst
    · rename_i hp
      cases hst
      have hout : client.boundTo = none := by rw [boundTo, hp]; rfl
      exact h.setClient hn hout.symm (by rintro _ ⟨⟩) fun _ _ => rfl
    · cases hst
  | upstreamClosed n | refused n =>
    obtain ⟨client, hn, hst⟩ := bind_eq_some_iff.mp hst
    split at hst
    · rename_i hp
      cases hst
      exact h.abandon hn (by rw [boundTo, hp]; rfl) (by rw [hp]; rintro ⟨⟩)
    · cases hst
  | cancel n =>
    obtain ⟨client, hn, hst⟩ := bind_eq_some_iff.mp hst
    split at hst
    · cases hst
    · cases hst
      simp only [keepsAccount, hn, all_some] at hkeeps
      exact h.onCancel hn hkeeps

end Inv

end LegacyRouter

/-- In every run in which no upstream is filled while another client connects to it, no reply raises
    an exception that is not expected, and no handler is cancelled with its socket open, the
    accounts of the router are right. -/
theorem legacy_router_accounted (capacities : List ℤ) (s : LegacyRouter)
    (hs : ((routerSystem capacities).restrict fun s act => s.keepsAccount act = true).Reachable s) :
    s.Accounted := by
  refine (hs.invariant (P := LegacyRouter.Inv) (fun s₀ h₀ => ?_) ?_).toAccounted
  · obtain rfl : s₀ = { upstreams := capacities.map fun capacity => { capacity := capacity } } := h₀
    exact LegacyRouter.Inv.initial capacities
  · rintro a act b ha ⟨hst, hkeeps⟩
    exact ha.step (show routerStep a act = some b from hst) hkeeps

/-- One client is busy upstream, goes on to the second one and is bound there. -/
theorem legacy_router_accounted_retry :
    ∃ s : LegacyRouter, s.upstreams.map LegacyUpstream.active = [0, 1] ∧ s.Accounted := by
  have hrun : (System.exec (fun s act => if s.keepsAccount act = true then routerStep s act else none)
      { upstreams := [{ capacity := 2 }, { capacity := 2 }] }
      [.start, .connected 0 true, .startSent 0 true, .reply 0 (.error (.text busySubstring)),
        .probeClosed 0, .connected 0 true, .startSent 0 true, .reply 0 .ready, .replied 0 true]).map
      (fun s => s.upstreams.map LegacyUpstream.active) = some [0, 1] := by
    decide +kernel
  obtain ⟨s, hs, hval⟩ := map_eq_some_iff.mp hrun
  exact ⟨s, hval, legacy_router_accounted [2, 2] s (.of_exec_guarded (.init rfl) hs)⟩

/-- The upstream answers with JSON that is no object, and the client is gone. -/
theorem scalar_reply_keeps_slot :
    ¬∀ s : LegacyRouter, (routerSystem [2]).Reachable s → s.Accounted := by
  intro hall
  have hrun : (System.exec routerStep { upstreams := [{ capacity := 2 }] }
      [.start, .connected 0 true, .startSent 0 true, .reply 0 .scalar]).map
      (fun s => (s.upstreams, s.clients)) =
      some ([{ capacity := 2, active := 1 }], [{ phase := .gone, openSockets := [0] }]) := by
    decide
  obtain ⟨s, hs, hval⟩ := map_eq_some_iff.mp hrun
  obtain ⟨-, hclients⟩ := Prod.mk.inj hval
  have hclosed := (hall s (.of_exec (.init rfl) hs)).closed _
    (by rw [hclients]; exact mem_singleton_self _) rfl
  cases hclosed

end OmniRealtime

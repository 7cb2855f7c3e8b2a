import OmniRealtime.Scheduling.ReferenceEncoder

/-!
# Reference encodes in flight

1. `Leads.step`, `Follows.step`, `Cached.step`: the leaders in flight, what followers get, and what
   is cached.
2. `Handed.callStep`, `Handed.batchStep`: an item handed over is in the queue, with the worker, or
   has its outcome.
3. `reference_encoding_single_flight`: what holds in every interleaving in which nothing is handed
   to a worker that has stopped.
4. `handed_after_close_pending`: what becomes of an item that is.
-/

namespace OmniRealtime

open List Option Function

namespace ReferenceFlights

open Service Call

variable {κ α σ : Type}

section Calls

variable {s t : Service κ α σ} {id : Nat} {c : Call κ α σ} {e : CallEvent κ α σ}

/-! ## Leaders in flight -/

/-- An in-flight entry is a call that leads its key. -/
def Leads (s : Service κ α σ) : Prop :=
  ∀ key id, s.inflight key = some id ↔ (s.calls id).bind Call.leads = some key

theorem Leads.keep (h : Leads s) (hcls : t.calls = Function.update s.calls id (some c))
    (hi : t.inflight = s.inflight) (hleads : c.leads = (s.calls id).bind leads) :
    Leads t := by
  intro key id'
  rw [hi, h key id', hcls]
  by_cases heq : id' = id
  · rw [heq, update_self, bind_some, hleads]
  · rw [update_of_ne heq]

variable [DecidableEq κ]

section

variable (h : Leads s) (hcls : t.calls = Function.update s.calls id (some c))
include h hcls

theorem Leads.enter {key : κ} (hi : t.inflight = Function.update s.inflight key (some id))
    (hnone : s.inflight key = none) (hbef : (s.calls id).bind leads = none)
    (hleads : c.leads = some key) : Leads t := by
  intro key' id'
  rw [hi, hcls]
  by_cases hid : id' = id
  · rw [hid, update_self, bind_some, hleads]
    by_cases hkey : key' = key
    · rw [hkey, update_self]
      exact iff_of_true rfl rfl
    · rw [update_of_ne hkey, h, hbef]
      exact iff_of_false (by simp) fun heq => hkey (some.inj heq).symm
  · rw [update_of_ne hid, ← h]
    by_cases hkey : key' = key
    · rw [hkey, update_self, hnone]
      exact iff_of_false (fun heq => hid (some.inj heq).symm) (by simp)
    · rw [update_of_ne hkey]

theorem Leads.leave {key : κ} (hi : t.inflight = Function.update s.inflight key none)
    (hbef : (s.calls id).bind leads = some key) (hleads : c.leads = none) : Leads t := by
  intro key' id'
  rw [hi, hcls]
  by_cases hid : id' = id
  · rw [hid, update_self, bind_some, hleads]
    by_cases hkey : key' = key
    · rw [hkey, update_self]
      exact iff_of_false (by simp) (by simp)
    · rw [update_of_ne hkey, h, hbef]
      exact iff_of_false (fun heq => hkey (some.inj heq).symm) (by simp)
  · rw [update_of_ne hid, ← h]
    by_cases hkey : key' = key
    · rw [hkey, update_self, (h key id).mpr hbef]
      exact iff_of_false (by simp) fun heq => hid (some.inj heq).symm
    · rw [update_of_ne hkey]

end

omit [DecidableEq κ] in
theorem Call.leads_encoded (key : Option κ) (artifact : Option α) :
    (encoded key artifact : Call κ α σ).leads = key := by
  cases key <;> cases artifact <;> rfl

theorem Leads.step (h : Leads s) (hm : CallMove s id e t) : Leads t := by
  cases hm with
  | entered hnew hc =>
    refine h.keep rfl rfl ?_
    rw [hnew]
    rcases hc with rfl | ⟨key, rfl⟩ <;> rfl
  | hit hc | joined hc hldr | followed hc hldr | gaveUp hc | handed he hc
  | stored stored hc | validated hc | uncacheable hc => exact h.keep rfl rfl (by rw [hc]; rfl)
  | led hc hnone => exact h.enter rfl rfl hnone (by rw [hc]; rfl) rfl
  | encoded artifact hc =>
    refine h.keep rfl rfl ((leads_encoded _ artifact).trans ?_)
    rcases hc with hc | hc <;> rw [hc] <;> rfl
  | failed hc hfls =>
    refine h.keep rfl rfl ?_
    rw [hc]
    rcases hfls with ⟨artifact, rfl⟩ | ⟨stored, rfl⟩ | ⟨stored, rfl⟩ <;> rfl
  | committed hc => exact h.leave rfl rfl (by rw [hc]; rfl) rfl
  | dropped hc => exact h.leave rfl rfl (by rw [hc]; rfl) rfl
  | @published stored hc =>
    refine h.keep rfl rfl ?_
    rw [hc]
    cases stored <;> rfl
  | loaded hc hc' =>
    refine h.keep rfl rfl ?_
    rw [hc]
    rcases hc' with rfl | rfl <;> rfl

omit [DecidableEq κ] in
theorem Leads.unique (h : Leads s) {key : κ} {id id' : Nat}
    (hid : (s.calls id).bind leads = some key)
    (hid' : (s.calls id').bind leads = some key) : id = id' :=
  some.inj (((h key id).mpr hid).symm.trans ((h key id').mpr hid'))

/-! ## Followers -/

/-- The call is going to complete its leader's future. -/
def Call.Leading (c : Call κ α σ) : Prop :=
  c.leads ≠ none ∨ ∃ stored, c = .publishing stored

def Call.follows : Call κ α σ → Option Nat
  | .following _ leader => some leader
  | _ => none

/-- The leader of a call that got its artifact, and that artifact. -/
def Call.answer : Call κ α σ → Option (Nat × σ)
  | .loading (some leader) stored | .returned (some leader) stored => some (leader, stored)
  | _ => none

/-- What a leader goes on with once its future is completed with `outcome`. -/
def Call.Published : Call κ α σ → Option σ → Prop
  | .loading none stored, outcome | .returned none stored, outcome => outcome = some stored
  | .raised, _ => True
  | _, _ => False

/-- The future of the leader is completed, or is going to be. -/
def Service.LeaderDue (s : Service κ α σ) (leader : Nat) : Prop :=
  s.leaders leader ≠ none ∨ ∃ c, s.calls leader = some c ∧ c.Leading

/-- What holds of followers, and of leaders' futures. -/
structure Follows (s : Service κ α σ) : Prop where
  followed : ∀ id c leader, s.calls id = some c → c.follows = some leader → s.LeaderDue leader
  published : ∀ id outcome, s.leaders id = some outcome →
    ∃ c, s.calls id = some c ∧ c.Published outcome
  answered : ∀ id c answer, s.calls id = some c → c.answer = some answer →
    s.leaders answer.1 = some (some answer.2)

omit [DecidableEq κ] in
theorem Follows.keep (h : Follows s) (hcls : t.calls = Function.update s.calls id (some c))
    (hleaders : t.leaders = s.leaders)
    (hleading : ∀ before, s.calls id = some before → before.Leading → c.Leading)
    (hpublished : ∀ before outcome, s.calls id = some before → before.Published outcome →
      c.Published outcome)
    (hfollows : ∀ leader, c.follows = some leader → s.LeaderDue leader)
    (hanswer : ∀ answer, c.answer = some answer → s.leaders answer.1 = some (some answer.2)) :
    Follows t := by
  have hdue : ∀ leader, s.LeaderDue leader → t.LeaderDue leader := by
    rintro leader (hsome | ⟨before, hbef, hleads⟩)
    · exact .inl (hleaders ▸ hsome)
    · right
      rw [hcls]
      by_cases heq : leader = id
      · subst heq
        exact ⟨c, update_self _ _ _, hleading before hbef hleads⟩
      · exact ⟨before, (update_of_ne heq _ _).trans hbef, hleads⟩
  refine ⟨fun id' c' leader hc' hldr => hdue leader ?_, fun id' outcome houtcome => ?_,
    fun id' c' answer hc' hc'' => ?_⟩
  · rw [hcls] at hc'
    rcases update_eq_some hc' with ⟨_, hnew⟩ | ⟨_, hold⟩
    · exact hfollows leader ((some.inj hnew).symm ▸ hldr)
    · exact h.followed id' c' leader hold hldr
  · rw [hleaders] at houtcome
    obtain ⟨before, hbef, hpub⟩ := h.published id' outcome houtcome
    rw [hcls]
    by_cases heq : id' = id
    · subst heq
      exact ⟨c, update_self _ _ _, hpublished before outcome hbef hpub⟩
    · exact ⟨before, (update_of_ne heq _ _).trans hbef, hpub⟩
  · rw [hcls] at hc'
    rw [hleaders]
    rcases update_eq_some hc' with ⟨_, hnew⟩ | ⟨_, hold⟩
    · exact hanswer answer ((some.inj hnew).symm ▸ hc'')
    · exact h.answered id' c' answer hold hc''

omit [DecidableEq κ] in
theorem Follows.publish (h : Follows s) {stored : Option σ}
    (hc : s.calls id = some (.publishing stored)) :
    Follows ({ s with leaders := Function.update s.leaders id (some stored) }.setCall id
      (.published stored)) := by
  have hfrs : s.leaders id = none := by
    cases hldr : s.leaders id with
    | none => rfl
    | some outcome =>
      obtain ⟨before, hbef, hpub⟩ := h.published id outcome hldr
      obtain rfl := some.inj (hc.symm.trans hbef)
      exact hpub.elim
  have hkept : ∀ leader outcome, s.leaders leader = some outcome →
      Function.update s.leaders id (some stored) leader = some outcome := by
    intro leader outcome houtcome
    have hne : leader ≠ id := by
      rintro rfl
      rw [hfrs] at houtcome
      cases houtcome
    exact (update_of_ne hne _ _).trans houtcome
  refine ⟨fun id' c' leader hc' hldr => ?_, fun id' outcome houtcome => ?_,
    fun id' c' answer hc' hanswer => ?_⟩
  · rcases update_eq_some hc' with ⟨_, hnew⟩ | ⟨_, hold⟩
    · cases hnew
      cases stored <;> cases hldr
    · by_cases heq : leader = id
      · subst heq
        exact .inl (by simp [setCall])
      · rcases h.followed id' c' leader hold hldr with hsome | ⟨before, hbef, hleads⟩
        · exact .inl (ne_of_eq_of_ne (update_of_ne heq _ _) hsome)
        · exact .inr ⟨before, (update_of_ne heq _ _).trans hbef, hleads⟩
  · rcases update_eq_some houtcome with ⟨rfl, hnew⟩ | ⟨hne, hold⟩
    · cases hnew
      refine ⟨_, update_self _ _ _, ?_⟩
      cases stored with
      | none => trivial
      | some stored => rfl
    · obtain ⟨before, hbef, hpub⟩ := h.published id' outcome hold
      exact ⟨before, (update_of_ne hne _ _).trans hbef, hpub⟩
  · rcases update_eq_some hc' with ⟨_, hnew⟩ | ⟨_, hold⟩
    · cases hnew
      cases stored <;> cases hanswer
    · exact hkept _ _ (h.answered id' c' answer hold hanswer)

omit [DecidableEq κ] in
theorem Follows.goOn (h : Follows s) {before : Call κ α σ} (hbef : s.calls id = some before)
    (hcls : t.calls = Function.update s.calls id (some c)) (hleaders : t.leaders = s.leaders)
    (hleading : before.Leading → c.Leading)
    (hpublished : ∀ outcome, before.Published outcome → c.Published outcome)
    (hfollows : c.follows = none) (hanswer : ∀ answer, c.answer = some answer →
      before.answer = some answer) : Follows t := by
  refine h.keep hcls hleaders (fun b hb => ?_) (fun b outcome hb => ?_) (fun leader hldr => ?_)
    fun answer hc => h.answered id before answer hbef (hanswer answer hc)
  · exact some.inj (hbef.symm.trans hb) ▸ hleading
  · exact some.inj (hbef.symm.trans hb) ▸ hpublished outcome
  · rw [hfollows] at hldr
    cases hldr

theorem Follows.step (h : Follows s) (hleads : Leads s) (hm : CallMove s id e t) :
    Follows t := by
  cases hm with
  | entered hnew hc =>
    refine h.keep rfl rfl (fun before hb => ?_) (fun before outcome hb => ?_) (fun leader hl => ?_)
      fun answer ha => ?_
    · rw [hnew] at hb
      cases hb
    · rw [hnew] at hb
      cases hb
    · rcases hc with rfl | ⟨key, rfl⟩ <;> cases hl
    · rcases hc with rfl | ⟨key, rfl⟩ <;> cases ha
  | hit hc =>
    refine h.goOn hc rfl rfl ?_ (fun _ hpub => hpub.elim) rfl nofun
    rintro (hkey | ⟨stored, hc'⟩)
    · exact absurd rfl hkey
    · cases hc'
  | @joined key leader hc hldr =>
    refine h.keep rfl rfl (fun before hb hleading => ?_) (fun before outcome hb hpub => ?_)
      (fun leader' hl => ?_) nofun
    · obtain rfl := some.inj (hc.symm.trans hb)
      rcases hleading with hkey | ⟨stored, hc'⟩
      · exact absurd rfl hkey
      · cases hc'
    · obtain rfl := some.inj (hc.symm.trans hb)
      exact hpub.elim
    · cases hl
      obtain ⟨c', hc', hkey⟩ := bind_eq_some_iff.mp ((hleads key leader).mp hldr)
      exact .inr ⟨c', hc', .inl (hkey ▸ some_ne_none key)⟩
  | led hc hnone | stored stored hc | validated hc | uncacheable hc =>
    exact h.goOn hc rfl rfl (fun _ => .inl (some_ne_none _)) (fun _ hpub => hpub.elim) rfl
      nofun
  | @followed key leader stored hc hldr =>
    refine h.keep rfl rfl (fun before hb hleading => ?_) (fun before outcome hb hpub => ?_) nofun
      fun answer ha => ?_
    · obtain rfl := some.inj (hc.symm.trans hb)
      rcases hleading with hkey | ⟨stored, hc'⟩
      · exact absurd rfl hkey
      · cases hc'
    · obtain rfl := some.inj (hc.symm.trans hb)
      exact hpub.elim
    · cases ha
      exact hldr
  | gaveUp hc =>
    refine h.goOn hc rfl rfl ?_ (fun _ _ => trivial) rfl nofun
    rintro (hkey | ⟨stored, hc'⟩)
    · exact absurd rfl hkey
    · cases hc'
  | handed he hc =>
    refine h.goOn hc rfl rfl ?_ (fun _ hpub => hpub.elim) rfl nofun
    rintro (hkey | ⟨stored, hc'⟩)
    · exact .inl hkey
    · cases hc'
  | @encoded key artifact hc =>
    have hleading : key ≠ none → (Call.encoded key artifact : Call κ α σ).Leading := fun hkey =>
      .inl (ne_of_eq_of_ne (leads_encoded key artifact) hkey)
    have hfollows : (Call.encoded key artifact : Call κ α σ).follows = none := by
      cases key <;> cases artifact <;> rfl
    have hanswer : (Call.encoded key artifact : Call κ α σ).answer = none := by
      cases key <;> cases artifact <;> rfl
    have hnone : ∀ answer, (Call.encoded key artifact : Call κ α σ).answer ≠ some answer :=
      fun answer => ne_of_eq_of_ne hanswer (some_ne_none answer).symm
    rcases hc with hc | hc
    · refine h.goOn hc rfl rfl ?_ (fun _ hpub => hpub.elim) hfollows fun a ha => absurd ha (hnone a)
      rintro (hkey | ⟨stored, hc'⟩)
      · exact hleading hkey
      · cases hc'
    · refine h.goOn hc rfl rfl ?_ (fun _ hpub => hpub.elim) hfollows fun a ha => absurd ha (hnone a)
      rintro (hkey | ⟨stored, hc'⟩)
      · exact hleading hkey
      · cases hc'
  | failed hc hfls =>
    refine h.goOn hc rfl rfl (fun _ => .inl (some_ne_none _)) (fun _ hpub => ?_) rfl nofun
    rcases hfls with ⟨artifact, rfl⟩ | ⟨stored, rfl⟩ | ⟨stored, rfl⟩ <;> exact hpub.elim
  | committed hc | dropped hc =>
    exact h.goOn hc rfl rfl (fun _ => .inr ⟨_, rfl⟩) (fun _ hpub => hpub.elim) rfl nofun
  | published hc => exact h.publish hc
  | @loaded leader stored c hc hc' =>
    refine h.goOn hc rfl rfl ?_ (fun outcome hpub => ?_) ?_ fun answer ha => ?_
    · rintro (hkey | ⟨stored, hc''⟩)
      · exact absurd rfl hkey
      · cases hc''
    · rcases hc' with rfl | rfl
      · trivial
      · cases leader with
        | none => exact hpub
        | some leader => exact hpub.elim
    · rcases hc' with rfl | rfl <;> rfl
    · rcases hc' with rfl | rfl
      · cases ha
      · cases leader with
        | none => cases ha
        | some leader => exact ha

/-! ## The cache -/

/-- What is stored was encoded before, and what is validated was stored before. -/
def Ordered : List (Mark κ α σ) → Prop
  | [] => True
  | .encoded _ _ :: older => Ordered older
  | .stored id artifact _ :: older => .encoded id artifact ∈ older ∧ Ordered older
  | .validated id _ stored :: older =>
    (∃ artifact, .stored id artifact stored ∈ older) ∧ Ordered older

/-- A call encoded and stored an artifact, and then revalidated its key. -/
def RevalidatedAfterEncode (log : List (Mark κ α σ)) (key : κ) (stored : σ) : Prop :=
  ∃ id artifact newer between older,
    log = newer ++ .validated id key stored :: (between ++ .stored id artifact stored :: older) ∧
    .encoded id artifact ∈ older

omit [DecidableEq κ] in
theorem Ordered.of_append (newer : List (Mark κ α σ)) {older : List (Mark κ α σ)}
    (h : Ordered (newer ++ older)) : Ordered older := by
  induction newer with
  | nil => exact h
  | cons mark newer ih =>
    cases mark with
    | encoded id artifact => exact ih h
    | stored id artifact stored | validated id key stored => exact ih h.2

omit [DecidableEq κ] in
theorem Ordered.revalidated {log : List (Mark κ α σ)} (h : Ordered log) {key : κ} {stored : σ}
    (hmem : .validated id key stored ∈ log) : RevalidatedAfterEncode log key stored := by
  obtain ⟨newer, rest, rfl⟩ := append_of_mem hmem
  obtain ⟨⟨artifact, hstored⟩, hrest⟩ := h.of_append newer
  obtain ⟨between, older, rfl⟩ := append_of_mem hstored
  exact ⟨id, artifact, newer, between, older, rfl, (hrest.of_append between).1⟩

/-- What a call has done before is in the log. -/
def Call.Logged (id : Nat) (log : List (Mark κ α σ)) : Call κ α σ → Prop
  | .storing _ artifact => .encoded id artifact ∈ log
  | .revalidating _ stored => ∃ artifact, .stored id artifact stored ∈ log
  | .committing key stored true => .validated id key stored ∈ log
  | _ => True

omit [DecidableEq κ] in
theorem Call.Logged.append {log : List (Mark κ α σ)} {c : Call κ α σ} (h : c.Logged id log)
    (marks : List (Mark κ α σ)) : c.Logged id (marks ++ log) := by
  cases c with
  | storing key artifact => exact mem_append_right marks h
  | revalidating key stored =>
    obtain ⟨artifact, hstored⟩ := h
    exact ⟨artifact, mem_append_right marks hstored⟩
  | committing key stored shouldCache =>
    cases shouldCache with
    | true => exact mem_append_right marks h
    | false => trivial
  | _ => trivial

/-- What is cached was revalidated after its encode. -/
structure Cached (s : Service κ α σ) : Prop where
  cached : ∀ key stored, s.cache key = some stored → ∃ id, .validated id key stored ∈ s.log
  calls : ∀ id c, s.calls id = some c → c.Logged id s.log
  ordered : Ordered s.log

omit [DecidableEq κ] in
theorem Cached.keep (h : Cached s) (marks : List (Mark κ α σ))
    (hcls : t.calls = Function.update s.calls id (some c)) (hlog : t.log = marks ++ s.log)
    (hordered : Ordered (marks ++ s.log)) (hlogged : c.Logged id (marks ++ s.log))
    (hcached : ∀ key stored, t.cache key = some stored →
      s.cache key = some stored ∨ ∃ id, .validated id key stored ∈ s.log) : Cached t := by
  refine ⟨fun key stored hkey => ?_, fun id' c' hc' => ?_, hlog ▸ hordered⟩
  · rw [hlog]
    rcases hcached key stored hkey with hold | ⟨id', hmem⟩
    · obtain ⟨id', hmem⟩ := h.cached key stored hold
      exact ⟨id', mem_append_right marks hmem⟩
    · exact ⟨id', mem_append_right marks hmem⟩
  · rw [hcls] at hc'
    rw [hlog]
    rcases update_eq_some hc' with ⟨rfl, hnew⟩ | ⟨_, hold⟩
    · exact some.inj hnew ▸ hlogged
    · exact (h.calls id' c' hold).append marks

omit [DecidableEq κ] in
theorem Cached.goOn (h : Cached s) (hcls : t.calls = Function.update s.calls id (some c))
    (hlog : t.log = s.log) (hcache : t.cache = s.cache) (hlogged : c.Logged id s.log) : Cached t :=
  h.keep [] hcls hlog h.ordered hlogged fun _ _ hkey => .inl (hcache ▸ hkey)

theorem Cached.step (h : Cached s) (hm : CallMove s id e t) : Cached t := by
  cases hm with
  | entered hnew hc =>
    refine h.goOn rfl rfl rfl ?_
    rcases hc with rfl | ⟨key, rfl⟩ <;> trivial
  | hit hc | joined hc hldr | led hc hnone | followed hc hldr | gaveUp hc | handed he hc
  | uncacheable hc | failed hc hfls | dropped hc => exact h.goOn rfl rfl rfl trivial
  | @encoded key artifact hc =>
    cases artifact with
    | none =>
      refine h.goOn rfl rfl rfl ?_
      cases key <;> trivial
    | some artifact =>
      refine h.keep [.encoded id artifact] rfl rfl h.ordered ?_ fun _ _ hkey => .inl hkey
      cases key with
      | none => trivial
      | some key => exact mem_cons_self
  | @stored key artifact stored hc =>
    exact h.keep [.stored id artifact stored] rfl rfl ⟨h.calls id _ hc, h.ordered⟩
      ⟨artifact, mem_cons_self⟩ fun _ _ hkey => .inl hkey
  | @validated key stored hc =>
    exact h.keep [.validated id key stored] rfl rfl ⟨h.calls id _ hc, h.ordered⟩ mem_cons_self
      fun _ _ hkey => .inl hkey
  | @committed key stored shouldCache hc =>
    refine h.keep [] rfl rfl h.ordered trivial fun key' stored' hkey => ?_
    cases shouldCache with
    | false => exact .inl hkey
    | true =>
      rcases update_eq_some hkey with ⟨rfl, hnew⟩ | ⟨_, hold⟩
      · exact .inr ⟨id, some.inj hnew ▸ h.calls id _ hc⟩
      · exact .inl hold
  | @published stored hc =>
    refine h.goOn rfl rfl rfl ?_
    cases stored <;> trivial
  | loaded hc hc' =>
    refine h.goOn rfl rfl rfl ?_
    rcases hc' with rfl | rfl <;> trivial

omit [DecidableEq κ] in
/-- What does not touch the calls and the log keeps it, as long as nothing is added to the cache. -/
theorem Cached.of_eq (h : Cached s) (hcls : t.calls = s.calls) (hlog : t.log = s.log)
    (hcache : ∀ key stored, t.cache key = some stored → s.cache key = some stored) : Cached t :=
  ⟨fun key stored hkey => hlog ▸ h.cached key stored (hcache key stored hkey),
    fun id c hc => hlog ▸ h.calls id c (hcls ▸ hc), hlog ▸ h.ordered⟩

end Calls

/-! ## Items handed over -/

/-- An item of the call would have been handed over before. -/
def Call.PastHandOver : Call κ α σ → Prop
  | .lookup _ | .following _ _ | .encoding _ => False
  | _ => True

/-- The items that the worker has taken, and not completed. -/
def BatchWorker.held : BatchWorker α → List Nat
  | .collecting taken => taken
  | .encoding batch _ => batch
  | .settling todo _ => todo.map Prod.fst
  | .draining | .stopped | .died => []

/-- The outcomes that it is to complete futures with. -/
def BatchWorker.due : BatchWorker α → List (Nat × Option α)
  | .settling todo _ => todo
  | _ => []

/-- The items handed over that wait for an outcome, the one taken first at the head. -/
def Service.entries (s : Service κ α σ) : List Nat :=
  s.worker.held ++ s.queue.reduceOption

/-- What holds of the items handed over. -/
structure Handed (s : Service κ α σ) : Prop where
  nodup : s.entries.Nodup
  pending : ∀ id ∈ s.entries, s.futures id = none ∧ id ∈ s.handed
  kept : ∀ id ∈ s.handed, id ∈ s.entries ∨ s.futures id ≠ none
  completed : ∀ id, s.futures id ≠ none → id ∈ s.handed
  calls : ∀ id ∈ s.handed, ∃ c, s.calls id = some c ∧ c.PastHandOver
  own : ∀ id artifact, s.futures id = some (some artifact) → (id, artifact) ∈ s.produced
  due : ∀ id artifact, (id, some artifact) ∈ s.worker.due → (id, artifact) ∈ s.produced
  stopped : s.worker = .stopped → s.queue.reduceOption = []
  alive : s.worker ≠ .died

section Items

variable {s t : Service κ α σ} {id : Nat}

theorem Handed.moved (h : Handed s) (hens : t.entries = s.entries)
    (hcls : ∀ id ∈ s.handed, ∃ c, t.calls id = some c ∧ c.PastHandOver)
    (hf : t.futures = s.futures) (hhanded : t.handed = s.handed)
    (hproduced : ∀ x ∈ s.produced, x ∈ t.produced)
    (hdue : ∀ id artifact, (id, some artifact) ∈ t.worker.due → (id, artifact) ∈ t.produced)
    (hstopped : t.worker = .stopped → t.queue.reduceOption = []) (halv : t.worker ≠ .died) :
    Handed t where
  nodup := hens ▸ h.nodup
  pending id hid := by
    rw [hf, hhanded]
    exact h.pending id (hens ▸ hid)
  kept id hid := by
    rw [hens, hf]
    exact h.kept id (hhanded ▸ hid)
  completed id hid := by
    rw [hhanded]
    exact h.completed id (hf ▸ hid)
  calls id hid := hcls id (hhanded ▸ hid)
  own id artifact hid := hproduced _ (h.own id artifact (hf ▸ hid))
  due := hdue
  stopped := hstopped
  alive := halv

theorem encodes_of_mem_zip {batch : List Nat} {artifacts : Option (List α)}
    {single : Nat → Option α} {artifact : α}
    (h : (id, some artifact) ∈ batch.zip (encodeBatch batch artifacts single)) :
    (id, artifact) ∈ encodes batch artifacts single := by
  have hsingle : (id, some artifact) ∈ batch.zip (batch.map single) → (id, artifact) ∈
        batch.filterMap fun id => (single id).map fun artifact => (id, artifact) := by
    intro hmem
    rw [← map_prod_left_eq_zip] at hmem
    obtain ⟨id', hid', heq⟩ := mem_map.mp hmem
    obtain ⟨rfl, hartifact⟩ := Prod.mk.inj heq
    exact mem_filterMap.mpr ⟨id', hid', by rw [hartifact]; rfl⟩
  cases artifacts with
  | none => exact hsingle h
  | some artifacts =>
    by_cases hlen : artifacts.length = batch.length
    · rw [encodeBatch, if_pos hlen, zip_map_right] at h
      obtain ⟨⟨id', artifact'⟩, hmem, heq⟩ := mem_map.mp h
      obtain ⟨rfl, hartifact⟩ := Prod.mk.inj heq
      cases hartifact
      simpa [encodes, Option.filter, hlen] using hmem
    · rw [encodeBatch, if_neg hlen] at h
      have hmem := hsingle h
      simpa [encodes, Option.filter, hlen] using hmem

theorem held_settling (batch : List Nat) (artifacts : Option (List α)) (single : Nat → Option α)
    (stopping : Bool) :
    (BatchWorker.settling (batch.zip (encodeBatch batch artifacts single)) stopping).held = batch :=
  map_fst_zip (Nat.le_of_eq (length_encodeBatch batch artifacts single).symm)

section

variable (h : Handed s)
include h

theorem Handed.settle {outcome : Option α} {todo : List (Nat × Option α)} {stopping : Bool}
    (hworker : s.worker = .settling ((id, outcome) :: todo) stopping) :
    s.futures id = none ∧
    Handed ({ s with futures := Function.update s.futures id (some outcome) }.setWorker
      (.settling todo stopping)) := by
  have hens : s.entries = id :: (todo.map Prod.fst ++ s.queue.reduceOption) := by
    rw [entries, hworker]
    rfl
  have hdue : ∀ e ∈ todo, e ∈ s.worker.due := by
    rw [hworker]
    exact fun e => mem_cons_of_mem _
  have hnd := h.nodup
  rw [hens] at hnd
  obtain ⟨hnotin, hrest⟩ := nodup_cons.mp hnd
  have hid := h.pending id (hens ▸ mem_cons_self)
  refine ⟨hid.1, hrest, fun id' hid' => ?_, fun id' hid' => ?_, fun id' hid' => ?_, h.calls,
    fun id' artifact hid' => ?_, fun id' artifact hid' => h.due id' artifact (hdue _ hid'), nofun,
    nofun⟩
  · have hne : id' ≠ id := fun heq => hnotin (heq ▸ hid')
    have hold := h.pending id' (hens ▸ mem_cons_of_mem id hid')
    exact ⟨(update_of_ne hne _ _).trans hold.1, hold.2⟩
  · by_cases hne : id' = id
    · right
      show Function.update s.futures id (some outcome) id' ≠ none
      rw [hne, update_self]
      exact some_ne_none outcome
    · rcases h.kept id' hid' with hmem | hsome
      · rw [hens] at hmem
        exact .inl (mem_of_ne_of_mem hne hmem)
      · exact .inr (ne_of_eq_of_ne (update_of_ne hne _ _) hsome)
  · by_cases hne : id' = id
    · exact hne ▸ hid.2
    · exact h.completed id' fun hnone =>
        hid' ((update_of_ne hne _ _).trans hnone)
  · rcases update_eq_some hid' with ⟨rfl, hnew⟩ | ⟨_, hold⟩
    · refine h.due id' artifact ?_
      rw [hworker]
      exact some.inj hnew ▸ mem_cons_self
    · exact h.own id' artifact hold

theorem Handed.batchStep (hm : BatchMove s t) : Handed t := by
  cases hm with
  | took hworker hq | closed hworker hq | cut hworker hq | skipped hworker hq =>
    refine h.moved ?_ h.calls rfl rfl (fun x hx => hx) nofun nofun nofun
    rw [entries, entries, hworker, hq]
    rfl
  | @added first taken id queue hworker hq =>
    refine h.moved ?_ h.calls rfl rfl (fun x hx => hx) nofun nofun nofun
    rw [entries, entries, hworker, hq]
    exact append_assoc (first :: taken) [id] queue.reduceOption
  | started hworker =>
    refine h.moved ?_ h.calls rfl rfl (fun x hx => hx) nofun nofun nofun
    rw [entries, entries, hworker]
    rfl
  | @encoded batch stopping artifacts single hworker =>
    refine h.moved ?_ h.calls rfl rfl (fun x => mem_append_left _)
      (fun id artifact hmem => mem_append_right _ (encodes_of_mem_zip hmem)) nofun nofun
    rw [entries, entries, hworker]
    exact congrArg (· ++ s.queue.reduceOption) (held_settling batch artifacts single stopping)
  | @raised batch stopping hworker =>
    refine h.moved ?_ h.calls rfl rfl (fun x hx => hx) (fun id artifact hmem => ?_) nofun nofun
    · have hheld : (batch.map fun id => (id, (none : Option α))).map Prod.fst = batch := by
        rw [List.map_map]
        exact map_id batch
      rw [entries, entries, hworker]
      exact congrArg (· ++ s.queue.reduceOption) hheld
    · obtain ⟨id', _, heq⟩ := mem_map.mp hmem
      cases heq
  | completed hworker hnone => exact (h.settle hworker).2
  | refused hworker hsome => exact absurd (h.settle hworker).1 hsome
  | @settled stopping hworker =>
    have hens : ∀ worker : BatchWorker α, worker.held = [] →
        (s.setWorker worker).entries = s.entries := by
      intro worker hheld
      rw [entries, entries, hworker]
      exact congrArg (· ++ s.queue.reduceOption) hheld
    cases stopping with
    | true | false =>
      exact h.moved (hens _ rfl) h.calls rfl rfl (fun x hx => hx) nofun nofun nofun
  | drained hworker hq =>
    refine h.moved ?_ h.calls rfl rfl (fun x hx => hx) (fun id' artifact hmem => ?_) nofun nofun
    · rw [entries, entries, hworker, hq]
      rfl
    · cases mem_singleton.mp hmem
  | stopped hworker hq =>
    refine h.moved ?_ h.calls rfl rfl (fun x hx => hx) nofun (fun _ => ?_) nofun
    · rw [entries, entries, hworker]
      rfl
    · show s.queue.reduceOption = []
      rw [hq]
      rfl

theorem Handed.goOn {c : Call κ α σ} (hcls : t.calls = Function.update s.calls id (some c))
    (hens : t.entries = s.entries) (hworker : t.worker = s.worker)
    (hf : t.futures = s.futures) (hhanded : t.handed = s.handed)
    (hproduced : t.produced = s.produced)
    (hp : ∀ before, s.calls id = some before → before.PastHandOver → c.PastHandOver) :
    Handed t := by
  refine h.moved hens (fun id' hid => ?_) hf hhanded (fun x hx => hproduced ▸ hx)
    (fun id' artifact hid => ?_) (fun hstopped => ?_) (hworker ▸ h.alive)
  · obtain ⟨before, hbef, hp'⟩ := h.calls id' hid
    rw [hcls]
    by_cases heq : id' = id
    · subst heq
      exact ⟨c, update_self _ _ _, hp before hbef hp'⟩
    · exact ⟨before, (update_of_ne heq _ _).trans hbef, hp'⟩
  · rw [hproduced]
    exact h.due id' artifact (hworker ▸ hid)
  · have hold := hworker ▸ hstopped
    have hnil := h.stopped hold
    rw [entries, entries, hworker, hold] at hens
    exact hens.trans hnil

theorem Handed.handOver {key : Option κ} (hc : s.calls id = some (.encoding key))
    (hworker : s.worker ≠ .stopped) :
    Handed ({ s with queue := s.queue ++ [some id], handed := id :: s.handed }.setCall id
      (.waiting key)) := by
  have hfrs : id ∉ s.handed := by
    intro hmem
    obtain ⟨before, hbef, hp⟩ := h.calls id hmem
    obtain rfl := some.inj (hc.symm.trans hbef)
    exact hp
  have hnone : s.futures id = none := by
    cases hfuture : s.futures id with
    | none => rfl
    | some outcome => exact absurd (h.completed id (hfuture ▸ some_ne_none outcome)) hfrs
  have hens : ({ s with queue := s.queue ++ [some id], handed := id :: s.handed }.setCall id
      (.waiting key)).entries = s.entries ++ [id] := by
    show s.worker.held ++ (s.queue ++ [some id]).reduceOption = s.entries ++ [id]
    rw [reduceOption_append, ← append_assoc]
    rfl
  refine ⟨?_, fun id' hid' => ?_, fun id' hid' => ?_, fun id' hid' => ?_, fun id' hid' => ?_, h.own,
    h.due, fun hstopped => absurd hstopped hworker, h.alive⟩
  · rw [hens]
    exact nodup_append.mpr ⟨h.nodup, nodup_singleton id, fun a ha b hb hab =>
      hfrs ((mem_singleton.mp hb ▸ hab) ▸ (h.pending a ha).2)⟩
  · rw [hens] at hid'
    rcases mem_append.mp hid' with hold | hnew
    · exact ⟨(h.pending id' hold).1, mem_cons_of_mem id (h.pending id' hold).2⟩
    · obtain rfl := mem_singleton.mp hnew
      exact ⟨hnone, mem_cons_self⟩
  · rw [hens]
    rcases mem_cons.mp hid' with rfl | hold
    · exact .inl (mem_append_right _ mem_cons_self)
    · exact (h.kept id' hold).imp (mem_append_left [id]) fun hsome => hsome
  · exact mem_cons_of_mem id (h.completed id' hid')
  · by_cases heq : id' = id
    · subst heq
      exact ⟨_, update_self _ _ _, trivial⟩
    · obtain ⟨before, hbef, hp⟩ := h.calls id' (mem_of_ne_of_mem heq hid')
      exact ⟨before, (update_of_ne heq _ _).trans hbef, hp⟩

theorem Handed.callStep [DecidableEq κ] {e : CallEvent κ α σ} (hm : CallMove s id e t)
    (hintime : e = .handOver → s.worker ≠ .stopped) : Handed t := by
  have hat : ∀ {c before : Call κ α σ}, s.calls id = some c → s.calls id = some before →
      before.PastHandOver → c.PastHandOver := fun hc hbef hp =>
    some.inj (hbef.symm.trans hc) ▸ hp
  cases hm with
  | entered hnew hc =>
    refine h.goOn rfl rfl rfl rfl rfl rfl fun before hbef _ => ?_
    rw [hnew] at hbef
    cases hbef
  | hit hc | followed hc hldr | gaveUp hc | stored stored hc | validated hc | uncacheable hc
  | failed hc hfls | committed hc | dropped hc =>
    exact h.goOn rfl rfl rfl rfl rfl rfl fun _ _ _ => trivial
  | joined hc hldr =>
    exact h.goOn rfl rfl rfl rfl rfl rfl fun _ hbef hp => (hat hc hbef hp).elim
  | led hc hnone =>
    exact h.goOn rfl rfl rfl rfl rfl rfl fun _ hbef hp => (hat hc hbef hp).elim
  | handed he hc => exact h.handOver hc (hintime he)
  | @encoded key artifact hc =>
    refine h.goOn rfl rfl rfl rfl rfl rfl fun _ _ _ => ?_
    cases key <;> cases artifact <;> trivial
  | @published stored hc =>
    refine h.goOn rfl rfl rfl rfl rfl rfl fun _ _ _ => ?_
    cases stored <;> trivial
  | loaded hc hc' =>
    refine h.goOn rfl rfl rfl rfl rfl rfl fun _ _ _ => ?_
    rcases hc' with rfl | rfl <;> trivial

end

/-- The worker has a step, or no item waits. -/
theorem Handed.batchStep_enabled (maxBatchSize : Nat) (h : Handed s) :
    (∃ e t, ReferenceFlights.batchStep maxBatchSize s e = some t) ∨ s.entries = [] := by
  cases hworker : s.worker with
  | collecting taken =>
    cases taken with
    | nil =>
      cases hq : s.queue with
      | nil =>
        right
        rw [entries, hworker, hq]
        rfl
      | cons entry queue =>
        left
        refine ⟨.take, ?_⟩
        cases entry with
        | none | some id =>
          exact ⟨_, by simp only [ReferenceFlights.batchStep, hworker, hq]; rfl⟩
    | cons first taken => exact .inl ⟨.start, _, by rw [ReferenceFlights.batchStep, hworker]⟩
  | encoding batch stopping =>
    exact .inl ⟨.encodeRaises, _, by rw [ReferenceFlights.batchStep, hworker]⟩
  | settling todo stopping =>
    cases todo with
    | nil => exact .inl ⟨.settled, _, by rw [ReferenceFlights.batchStep, hworker]⟩
    | cons due todo =>
      obtain ⟨id, outcome⟩ := due
      have hnone := (h.settle hworker).1
      exact .inl ⟨.settle, _, by rw [ReferenceFlights.batchStep, hworker]; exact if_pos hnone⟩
  | draining =>
    left
    refine ⟨.drain, ?_⟩
    cases hq : s.queue with
    | nil => exact ⟨_, by simp only [ReferenceFlights.batchStep, hworker, hq]; rfl⟩
    | cons entry queue =>
      cases entry with
      | none | some id => exact ⟨_, by simp only [ReferenceFlights.batchStep, hworker, hq]; rfl⟩
  | stopped =>
    right
    rw [entries, hworker, h.stopped hworker]
    rfl
  | died => exact absurd hworker h.alive

end Items

/-! ## Runs -/

section Runs

variable [DecidableEq κ] {batching : Bool} {maxBatchSize : Nat} {s t : Service κ α σ}
  {e : ServiceEvent κ α σ}

/-- What holds after every step. -/
structure Flights (s : Service κ α σ) : Prop where
  leads : Leads s
  follows : Follows s
  cached : Cached s
  handed : Handed s

omit [DecidableEq κ] in
theorem Flights.init : Flights ({} : Service κ α σ) where
  leads _ _ := iff_of_false nofun nofun
  follows := ⟨nofun, nofun, nofun⟩
  cached := ⟨nofun, nofun, trivial⟩
  handed := ⟨nodup_nil, nofun, nofun, fun _ h => absurd rfl h, nofun, nofun, nofun, nofun,
    nofun⟩

omit [DecidableEq κ] in
/-- A step that only queues or works leaves leaders and followers as they are. -/
theorem Follows.of_eq (h : Follows s) (hcls : t.calls = s.calls)
    (hleaders : t.leaders = s.leaders) : Follows t where
  followed id c leader hc hldr := by
    rw [LeaderDue, hcls, hleaders]
    exact h.followed id c leader (hcls ▸ hc) hldr
  published id outcome houtcome := by
    rw [hcls]
    exact h.published id outcome (hleaders ▸ houtcome)
  answered id c answer hc hanswer := by
    rw [hleaders]
    exact h.answered id c answer (hcls ▸ hc) hanswer

omit [DecidableEq κ] in
theorem Leads.of_eq (h : Leads s) (hcls : t.calls = s.calls)
    (hi : t.inflight = s.inflight) : Leads t := by
  intro key id
  rw [hi, hcls]
  exact h key id

omit [DecidableEq κ] in
theorem Handed.close (h : Handed s) : Handed { s with queue := s.queue ++ [none] } := by
  have hq : (s.queue ++ [none]).reduceOption = s.queue.reduceOption := by
    rw [reduceOption_append]
    exact append_nil _
  exact h.moved (congrArg (s.worker.held ++ ·) hq) h.calls rfl rfl (fun x hx => hx) h.due
    (fun hstopped => hq.trans (h.stopped hstopped)) h.alive

theorem Flights.step (h : Flights s) (hstep : serviceStep batching maxBatchSize s e = some t)
    (hintime : HandedInTime s e) : Flights t := by
  cases e with
  | call id e =>
    have hm := callStep_eq_some hstep
    refine ⟨h.leads.step hm, h.follows.step h.leads hm, h.cached.step hm,
      h.handed.callStep hm fun he => ?_⟩
    rw [he] at hintime
    exact hintime
  | work e =>
    have hm := batchStep_eq_some hstep
    obtain ⟨hcls, hi, hleaders, hcache, hlog⟩ := hm.frame
    exact ⟨h.leads.of_eq hcls hi, h.follows.of_eq hcls hleaders,
      h.cached.of_eq hcls hlog fun _ _ hkey => hcache ▸ hkey, h.handed.batchStep hm⟩
  | close =>
    rw [serviceStep] at hstep
    split at hstep
    next =>
      cases hstep
      exact ⟨h.leads, h.follows.of_eq rfl rfl, h.cached.of_eq rfl rfl fun _ _ hkey => hkey,
        h.handed.close⟩
    next => exact some.inj hstep ▸ h
  | evict key =>
    cases hstep
    refine ⟨h.leads, h.follows.of_eq rfl rfl, h.cached.of_eq rfl rfl fun key' stored hkey => ?_,
      h.handed.moved rfl h.handed.calls rfl rfl (fun x hx => hx) h.handed.due h.handed.stopped h.handed.alive⟩
    rcases update_eq_some hkey with ⟨_, hnew⟩ | ⟨_, hold⟩
    · cases hnew
    · exact hold

theorem reachable_flights
    (h : ((serviceSystem κ α σ batching maxBatchSize).restrict HandedInTime).Reachable s) :
    Flights s :=
  h.invariant (P := Flights) (fun _ hinit => hinit ▸ .init) fun _ _ _ hs (hstep : _ ∧ _) =>
    hs.step hstep.1 hstep.2

theorem futures_step (hstep : serviceStep batching maxBatchSize s e = some t) {id : Nat}
    {outcome : Option α} (houtcome : s.futures id = some outcome) :
    t.futures id = some outcome := by
  cases e with
  | call id' e => cases callStep_eq_some hstep <;> exact houtcome
  | work e =>
    cases batchStep_eq_some hstep with
    | completed hworker hnone =>
      refine (update_of_ne ?_ _ _).trans houtcome
      rintro rfl
      rw [hnone] at houtcome
      cases houtcome
    | _ => exact houtcome
  | close =>
    rw [serviceStep] at hstep
    split at hstep <;> exact some.inj hstep ▸ houtcome
  | evict key => exact some.inj hstep ▸ houtcome

/-- In every run in which nothing is handed to a worker that has stopped: the in-flight entries are
    the calls that lead their keys, one for each key; the leader of a follower has completed its
    future or goes on to; a follower gets what its leader went on with; every call ends, in a
    bounded number of steps of its own; what is cached was revalidated after its encode; the outcome
    of an item is kept, and an artifact is that of the item; and the worker alone takes every item
    handed over to its outcome. -/
theorem reference_encoding_single_flight (κ α σ : Type) [DecidableEq κ] (batching : Bool)
    (maxBatchSize : Nat) {s : Service κ α σ}
    (h : ((serviceSystem κ α σ batching maxBatchSize).restrict HandedInTime).Reachable s) :
    (∀ key id, s.inflight key = some id ↔ ∃ c, s.calls id = some c ∧ c.leads = some key) ∧
    (∀ key id id' c c', s.calls id = some c → s.calls id' = some c' → c.leads = some key →
      c'.leads = some key → id = id') ∧
    (∀ id key leader, s.calls id = some (.following key leader) →
      (∃ outcome, s.leaders leader = some outcome) ∨
        ∃ c, s.calls leader = some c ∧ c.Leading) ∧
    (∀ id leader stored, s.calls id = some (.loading (some leader) stored) ∨
        s.calls id = some (.returned (some leader) stored) →
      s.leaders leader = some (some stored) ∧
        ∃ c, s.calls leader = some c ∧ c.Published (some stored)) ∧
    (∀ id c, s.calls id = some c →
      (c.rank ≠ 0 → ∃ e t, callStep batching s id e = some t) ∧
      ∀ e t, callStep batching s id e = some t → ∃ c', t.calls id = some c' ∧ c'.rank < c.rank) ∧
    (∀ key stored, s.cache key = some stored → RevalidatedAfterEncode s.log key stored) ∧
    (∀ id outcome, s.futures id = some outcome → id ∈ s.handed ∧
      (∀ artifact, outcome = some artifact → (id, artifact) ∈ s.produced) ∧
      ∀ e t, serviceStep batching maxBatchSize s e = some t → t.futures id = some outcome) ∧
    s.worker ≠ .died ∧
    ((∃ e t, batchStep maxBatchSize s e = some t) ∨
      ∀ id ∈ s.handed, ∃ outcome, s.futures id = some outcome) ∧
    ∀ events t, System.exec (batchStep maxBatchSize) s events = some t →
      events.length ≤ s.work := by
  obtain ⟨hleads, hfollows, hcached, hhanded⟩ := reachable_flights h
  refine ⟨fun key id => ?_, fun key id id' c c' hc hc' hkey hkey' => ?_,
    fun id key leader hc => ?_, fun id leader stored hc => ?_, fun id c hc => ?_,
    fun key stored hkey => ?_, fun id outcome houtcome => ?_, hhanded.alive, ?_,
    fun events t hrun => exec_batchStep_length hrun⟩
  · rw [hleads key id]
    exact bind_eq_some_iff
  · exact hleads.unique (bind_eq_some_iff.mpr ⟨c, hc, hkey⟩)
      (bind_eq_some_iff.mpr ⟨c', hc', hkey'⟩)
  · rcases hfollows.followed id _ leader hc rfl with hsome | hleading
    · exact .inl (ne_none_iff_exists'.mp hsome)
    · exact .inr hleading
  · have hanswer : s.leaders leader = some (some stored) := by
      rcases hc with hc | hc
      · exact hfollows.answered id _ (leader, stored) hc rfl
      · exact hfollows.answered id _ (leader, stored) hc rfl
    exact ⟨hanswer, hfollows.published leader (some stored) hanswer⟩
  · exact ⟨callStep_enabled batching hc, fun e t hstep => (callStep_eq_some hstep).rank_lt hc⟩
  · obtain ⟨id, hmem⟩ := hcached.cached key stored hkey
    exact hcached.ordered.revalidated hmem
  · refine ⟨hhanded.completed id (houtcome ▸ some_ne_none outcome),
      fun artifact hartifact => ?_, fun e t hstep => futures_step hstep houtcome⟩
    exact hhanded.own id artifact (hartifact ▸ houtcome)
  · rcases hhanded.batchStep_enabled maxBatchSize with hstep | hnil
    · exact .inl hstep
    · right
      intro id hid
      rcases hhanded.kept id hid with hmem | hsome
      · rw [hnil] at hmem
        exact absurd hmem not_mem_nil
      · exact ne_none_iff_exists'.mp hsome

instance [DecidableEq α] (s : Service κ α σ) (e : ServiceEvent κ α σ) :
    Decidable (HandedInTime s e) :=
  match e with
  | .call _ .handOver => inferInstanceAs (Decidable (s.worker ≠ .stopped))
  | .call _ (.enter _) | .call _ .lookup | .call _ .followerResult | .call _ .followerTimeout
  | .call _ (.encodeOne _) | .call _ .batchResult | .call _ .batchTimeout | .call _ (.store _)
  | .call _ (.revalidate _) | .call _ (.commit _) | .call _ .drop | .call _ .publish
  | .call _ (.load _) | .work _ | .close | .evict _ => inferInstanceAs (Decidable True)

/-- The steps of a call whose item the worker encodes, and of one that follows it. -/
def sampleRun : List (ServiceEvent Nat Nat Nat) :=
  [.call 0 (.enter (some 7)), .call 1 (.enter (some 7)), .call 0 .lookup, .call 1 .lookup,
    .call 0 .handOver, .work .take, .work .start, .work (.encode (some [5]) fun _ => none),
    .work .settle, .work .settled, .call 0 .batchResult, .call 0 (.store (some 6)),
    .call 0 (.revalidate (some true)), .call 0 (.commit false), .call 0 .publish,
    .call 1 .followerResult, .call 1 (.load false)]

theorem reference_encoding_single_flight_sample :
    ∃ s : Service Nat Nat Nat, s.calls 1 = some (.returned (some 0) 6) ∧
      s.leaders 0 = some (some 6) ∧ RevalidatedAfterEncode s.log 7 6 := by
  have hrun : (System.exec (fun s e => if HandedInTime s e then serviceStep true 2 s e else none) {}
      sampleRun).map (fun s => (s.calls 1, s.cache 7)) =
      some (some (.returned (some 0) 6), some 6) := by decide
  obtain ⟨s, hs, hval⟩ := map_eq_some_iff.mp hrun
  rw [Prod.mk.injEq] at hval
  have hreach : ((serviceSystem Nat Nat Nat true 2).restrict HandedInTime).Reachable s :=
    .of_exec_guarded (.init rfl) hs
  obtain ⟨_, _, _, hfollower, _, hcached, _⟩ :=
    reference_encoding_single_flight Nat Nat Nat true 2 hreach
  exact ⟨s, hval.1, (hfollower 1 0 6 (.inr hval.1)).1, hcached 7 6 hval.2⟩

theorem stopped_step (hstep : serviceStep batching maxBatchSize s e = some t)
    (hworker : s.worker = .stopped) : t.worker = .stopped ∧ t.futures = s.futures := by
  cases e with
  | call id e => cases callStep_eq_some hstep <;> exact ⟨hworker, rfl⟩
  | work e =>
    have hne : ∀ {worker : BatchWorker α}, s.worker = worker → worker ≠ .stopped → False :=
      fun hold hne => hne (hold.symm.trans hworker)
    cases batchStep_eq_some hstep with
    | took hold hq | closed hold hq | added hold hq | cut hold hq | started hold
    | encoded artifacts single hold | raised hold | completed hold hnone | refused hold hsome
    | settled hold | drained hold hq | skipped hold hq | stopped hold hq =>
      exact (hne hold nofun).elim
  | close =>
    rw [serviceStep] at hstep
    split at hstep <;> exact some.inj hstep ▸ ⟨hworker, rfl⟩
  | evict key => exact some.inj hstep ▸ ⟨hworker, rfl⟩

theorem exec_stopped {events : List (ServiceEvent κ α σ)}
    (hrun : System.exec (serviceStep batching maxBatchSize) s events = some t)
    (hworker : s.worker = .stopped) : t.futures = s.futures := by
  induction events generalizing s with
  | nil => exact some.inj hrun ▸ rfl
  | cons e events ih =>
    obtain ⟨u, hstep, hrest⟩ := bind_eq_some_iff.mp hrun
    obtain ⟨hstopped, hf⟩ := stopped_step hstep hworker
    exact (ih hrest hstopped).trans hf

end Runs

/-- An item handed over after `close`, once the worker has found the queue empty: however the run
    goes on, it gets no outcome. -/
theorem handed_after_close_pending :
    ∃ s : Service Nat Nat Nat, (serviceSystem Nat Nat Nat true 2).Reachable s ∧ 0 ∈ s.handed ∧
      ∀ events t, System.exec (serviceStep true 2) s events = some t → t.futures 0 = none := by
  have hrun : (System.exec (serviceStep true 2) ({} : Service Nat Nat Nat)
      [.close, .work .take, .work .drain, .call 0 (.enter (some 7)), .call 0 .lookup,
        .call 0 .handOver]).map (fun s => (s.worker, s.handed, s.futures 0)) =
      some (.stopped, [0], none) := by decide
  obtain ⟨s, hs, hval⟩ := map_eq_some_iff.mp hrun
  rw [Prod.mk.injEq, Prod.mk.injEq] at hval
  obtain ⟨hworker, hhanded, hnone⟩ := hval
  have hreach : (serviceSystem Nat Nat Nat true 2).Reachable s := .of_exec (.init rfl) hs
  refine ⟨s, hreach, ?_, fun events t hrest => ?_⟩
  · rw [hhanded]
    exact mem_cons_self
  · rw [exec_stopped hrest hworker]
    exact hnone

end ReferenceFlights

end OmniRealtime

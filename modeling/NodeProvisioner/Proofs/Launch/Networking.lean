import NodeProvisioner.Launch.Networking
import NodeProvisioner.Machine.Config
import NodeProvisioner.Proofs.Machine.Writing
import NodeProvisioner.Proofs.Trace

/-! Runs of the settling of interfaces. What becomes of one interface depends on the interface, its
bridge and the addresses that were taken for it; the change and the guest's view are put together
from what became of each. -/
namespace NodeProvisioner.Networking

variable (t : Target) (name : String) (bridge : Option Bridge)

/-! ### One interface -/

def filledV4 (address : String) (a : Addressing) : Addressing :=
  if a.ip = some .host then
    { a with ip := some (.fixed address), gateway := a.gateway <|> bridge.bind (·.ipv4Gateway) }
  else a

def filledV6 (address : String) (a : Addressing) : Addressing :=
  if a.ip6 = some .host then
    { a with ip6 := some (.fixed address), gateway6 := a.gateway6 <|> bridge.bind (·.ipv6Gateway) }
  else a

def filled (v4 v6 : String) (a : Addressing) : Addressing :=
  filledV6 bridge v6 (filledV4 bridge v4 a)

def occupyCall (family : Family) : Call :=
  .capacity (.occupyAddress t.region t.zone name t.machine family)

def occupied (family : Family) (address : String) : Event :=
  ⟨.capacity (.occupyAddress t.region t.zone name t.machine family), .ok address⟩

def taken (v4 v6 : String) (a : Addressing) : Trace :=
  (if a.ip = some .host then [occupied t name .v4 v4] else []) ++
    (if a.ip6 = some .host then [occupied t name .v6 v6] else [])

@[simp] theorem ip6_filledV4 (v4 : String) (a : Addressing) :
    (filledV4 bridge v4 a).ip6 = a.ip6 := by
  unfold filledV4
  split <;> rfl

@[simp] theorem gateway6_filledV4 (v4 : String) (a : Addressing) :
    (filledV4 bridge v4 a).gateway6 = a.gateway6 := by
  unfold filledV4
  split <;> rfl

@[simp] theorem ip_filledV6 (v6 : String) (a : Addressing) :
    (filledV6 bridge v6 a).ip = a.ip := by
  unfold filledV6
  split <;> rfl

@[simp] theorem gateway_filledV6 (v6 : String) (a : Addressing) :
    (filledV6 bridge v6 a).gateway = a.gateway := by
  unfold filledV6
  split <;> rfl

theorem ip_filled (v4 v6 : String) (a : Addressing) : (filled bridge v4 v6 a).ip =
    if a.ip = some .host then some (.fixed v4) else a.ip := by
  rw [filled, ip_filledV6, filledV4]
  split <;> rfl

theorem ip6_filled (v4 v6 : String) (a : Addressing) : (filled bridge v4 v6 a).ip6 =
    if a.ip6 = some .host then some (.fixed v6) else a.ip6 := by
  rw [filled, filledV6, ip6_filledV4]
  split
  · rfl
  · exact ip6_filledV4 bridge v4 a

theorem gateway_filled (v4 v6 : String) (a : Addressing) : (filled bridge v4 v6 a).gateway =
    if a.ip = some .host then a.gateway <|> bridge.bind (·.ipv4Gateway) else a.gateway := by
  rw [filled, gateway_filledV6, filledV4]
  split <;> rfl

theorem gateway6_filled (v4 v6 : String) (a : Addressing) : (filled bridge v4 v6 a).gateway6 =
    if a.ip6 = some .host then a.gateway6 <|> bridge.bind (·.ipv6Gateway) else a.gateway6 := by
  rw [filled, filledV6, ip6_filledV4, gateway6_filledV4]
  split
  · rfl
  · exact gateway6_filledV4 bridge v4 a

theorem hasPlaceholder_filled (v4 v6 : String) (a : Addressing) :
    (filled bridge v4 v6 a).hasPlaceholder = false := by
  unfold Addressing.hasPlaceholder
  rw [ip_filled, ip6_filled]
  split <;> split <;> simp_all

theorem ip_of_hasPlaceholder {a : Addressing} (h : a.hasPlaceholder = false) :
    a.ip ≠ some .host ∧ a.ip6 ≠ some .host := by
  simpa [Addressing.hasPlaceholder] using h

variable {t name bridge}

/-- What was asked for was refused, after answers to other questions of that kind. -/
def Refused (t : Target) (trace : Trace) (e : Fault) : Prop :=
  ∃ before name family, trace = before ++
      [⟨.capacity (.occupyAddress t.region t.zone name t.machine family), .error e⟩] ∧
    ∀ event ∈ before, ∃ name family, event.call = occupyCall t name family

theorem refused_of_error (family : Family) (e : Fault) : Refused t
    [⟨.capacity (.occupyAddress t.region t.zone name t.machine family), .error e⟩] e :=
  ⟨[], name, family, rfl, by simp⟩

theorem Refused.after {trace before : Trace} {e : Fault} (h : Refused t trace e)
    (hbefore : ∀ event ∈ before, ∃ name family, event.call = occupyCall t name family) :
    Refused t (before ++ trace) e := by
  obtain ⟨between, name, family, rfl, hbetween⟩ := h
  refine ⟨before ++ between, name, family, by simp, ?_⟩
  exact List.forall_mem_append.2 ⟨hbefore, hbetween⟩

theorem call_of_mem_taken {v4 v6 : String} {a : Addressing} {event : Event}
    (h : event ∈ taken t name v4 v6 a) : ∃ name family, event.call = occupyCall t name family := by
  unfold taken at h
  rcases List.mem_append.1 h with h | h
  all_goals
    split at h
    · exact ⟨name, _, congrArg Event.call (List.mem_singleton.1 h)⟩
    · cases h

def Ends {α : Type} (t : Target) (done : Trace → α → Prop) (trace : Trace) (r : Except Fault α) :
    Prop :=
  (∃ a, r = .ok a ∧ done trace a) ∨ ∃ e, r = .error e ∧ Refused t trace e

theorem Ends.bind {α β : Type} {j : Job α} {f : α → Job β} {done : Trace → α → Prop}
    {done' : Trace → β → Prop} (h : j.Ensures (Ends t done))
    (hdone : ∀ trace a, done trace a → ∀ event ∈ trace, ∃ name family,
      event.call = occupyCall t name family)
    (h' : ∀ trace a, done trace a → (f a).Ensures (Ends t fun trace' => done' (trace ++ trace'))) :
    (j >>= f).Ensures (Ends t done') := by
  refine Job.Ensures.bind h ?_ ?_
  · rintro trace a (⟨_, ⟨⟩, ha⟩ | ⟨e, ⟨⟩, _⟩)
    refine (h' trace a ha).mono ?_
    rintro trace' r (hr | ⟨e, he, hrefused⟩)
    · exact .inl hr
    · exact .inr ⟨e, he, hrefused.after (hdone trace a ha)⟩
  · rintro trace e (⟨_, ⟨⟩, _⟩ | ⟨_, ⟨⟩, hrefused⟩)
    exact .inr ⟨e, rfl, hrefused⟩

theorem ends_pure {α : Type} {a : α} {done : Trace → α → Prop} (h : done [] a) :
    (pure a : Job α).Ensures (Ends t done) :=
  (Job.ensures_pure _ _).2 (.inl ⟨a, rfl, h⟩)

theorem occupy_ends (family : Family) : (occupy t name family).Ensures
    (Ends t fun trace address => trace = [occupied t name family address]) := by
  refine (Capacity.ensures_send _ _).2 fun answer => ?_
  cases answer with
  | error e => exact .inr ⟨e, rfl, refused_of_error family e⟩
  | ok address => exact .inl ⟨address, rfl, rfl⟩

theorem settleV4_ends (a : Addressing) : (settleV4 t name bridge a).Ensures <|
    Ends t fun trace settled => ∃ v4, settled = filledV4 bridge v4 a ∧
      trace = if a.ip = some .host then [occupied t name .v4 v4] else [] := by
  unfold settleV4 filledV4
  split
  · apply Ends.bind (occupy_ends .v4)
    · rintro _ v4 rfl
      simp [occupied, occupyCall]
    · rintro _ v4 rfl
      exact ends_pure ⟨v4, rfl, rfl⟩
  · exact ends_pure ⟨"", rfl, rfl⟩

theorem settleV6_ends (a : Addressing) : (settleV6 t name bridge a).Ensures <|
    Ends t fun trace settled => ∃ v6, settled = filledV6 bridge v6 a ∧
      trace = if a.ip6 = some .host then [occupied t name .v6 v6] else [] := by
  unfold settleV6 filledV6
  split
  · apply Ends.bind (occupy_ends .v6)
    · rintro _ v6 rfl
      simp [occupied, occupyCall]
    · rintro _ v6 rfl
      exact ends_pure ⟨v6, rfl, rfl⟩
  · exact ends_pure ⟨"", rfl, rfl⟩

/-! ### All interfaces -/

structure Outcome where
  index : UInt8
  before : Nic
  after : Nic
  current : Option Addressing
  settled : Addressing
  /-- The addresses that were taken. -/
  taken : Trace

namespace Outcome

def wanted (network : ZoneNetwork) (m : Machine) (index : UInt8) (nic : Nic) : Addressing :=
  (m.addressing.get? index).getD (defaultAddressing (network.bridge? nic.bridge))

def of (t : Target) (network : ZoneNetwork) (m : Machine) (e : UInt8 × Nic) (v4 v6 : String) :
    Outcome where
  index := e.1
  before := e.2
  after := withBridgeMtu e.2 (network.bridge? e.2.bridge)
  current := m.addressing.get? e.1
  settled := filled (network.bridge? e.2.bridge) v4 v6 (wanted network m e.1 e.2)
  taken := Networking.taken t e.2.bridge v4 v6 (wanted network m e.1 e.2)

def view (x : Outcome) : GuestInterface := guestInterface x.index x.after x.settled

def orders (x : Outcome) : List (String × String) :=
  (if x.after = x.before then [] else [(Setting.numbered "net" x.index, x.after.render)]) ++
    (if x.current = some x.settled then []
      else [(Setting.numbered "ipconfig" x.index, x.settled.render)])

end Outcome

def Arises (t : Target) (network : ZoneNetwork) (m : Machine) (e : UInt8 × Nic) (x : Outcome) :
    Prop :=
  ∃ v4 v6, x = .of t network m e v4 v6

theorem record_eq (c : Change) (x : Outcome) :
    record c x.index x.before x.after x.current x.settled = c.putAll x.orders := by
  unfold record Outcome.orders
  split <;> split <;> rfl

theorem call_of_arises {network : ZoneNetwork} {m : Machine} {nics : List (UInt8 × Nic)}
    {xs : List Outcome} (h : List.Forall₂ (Arises t network m) nics xs) :
    ∀ event ∈ xs.flatMap (·.taken), ∃ name family, event.call = occupyCall t name family := by
  intro event hevent
  obtain ⟨x, hx, hevent⟩ := List.mem_flatMap.1 hevent
  obtain ⟨e, -, v4, v6, rfl⟩ := (mem_of_forall₂ h).2 x hx
  exact call_of_mem_taken hevent

theorem settleAll_ends (network : ZoneNetwork) (m : Machine) (nics : List (UInt8 × Nic))
    (c : Change) : (settleAll t network m nics c).Ensures <| Ends t fun trace out =>
      ∃ xs, List.Forall₂ (Arises t network m) nics xs ∧ trace = xs.flatMap (·.taken) ∧
        out = (c.putAll (xs.flatMap (·.orders)), xs.map (·.view)) := by
  induction nics generalizing c with
  | nil => exact ends_pure ⟨[], .nil, rfl, rfl⟩
  | cons nic rest ih =>
    apply Ends.bind (settleV4_ends _)
    · rintro _ _ ⟨v4, -, rfl⟩
      split <;> simp [occupied, occupyCall]
    rintro _ _ ⟨v4, rfl, rfl⟩
    apply Ends.bind (settleV6_ends _)
    · rintro _ _ ⟨v6, -, rfl⟩
      split <;> simp [occupied, occupyCall]
    rintro _ _ ⟨v6, rfl, rfl⟩
    apply Ends.bind (ih _)
    · rintro _ _ ⟨xs, hxs, rfl, -⟩
      exact call_of_arises hxs
    rintro _ _ ⟨xs, hxs, rfl, rfl⟩
    let x := Outcome.of t network m nic v4 v6
    apply ends_pure
    refine ⟨x :: xs, .cons ⟨v4, v6, rfl⟩ hxs, ?_, ?_⟩
    · have htaken : x.taken = _ ++ _ := rfl
      simp only [List.flatMap_cons, List.append_nil, htaken, List.append_assoc, ip6_filledV4]
      rfl
    · have hrecord : record c nic.1 nic.2 _ _ _ = c.putAll x.orders := record_eq c x
      have happend : (c.putAll x.orders).putAll (xs.flatMap (·.orders)) =
          c.putAll ((x :: xs).flatMap (·.orders)) := by
        simp [Change.putAll]
      rw [← happend, ← hrecord]
      rfl

/-! ### The whole run -/

def change (xs : List Outcome) : Change := Change.putAll {} (xs.flatMap (·.orders))

/-- How a change is written: not at all if it is empty, and with the bootstrap drive made anew if
there is one. -/
inductive Wrote (t : Target) (m : Machine) (c : Change) : Trace → Except Fault Unit → Prop where
  | nothing (hchange : c.isEmpty = true) : Wrote t m c [] (.ok ())
  | refused (e : Fault) (hchange : c.isEmpty = false) :
      Wrote t m c [⟨.hypervisor t.region (.configure t.zone t.machine c), .error e⟩] (.error e)
  | plain (hchange : c.isEmpty = false) (hdrive : m.hasCloudInitDrive = false) :
      Wrote t m c [⟨.hypervisor t.region (.configure t.zone t.machine c), .ok ()⟩] (.ok ())
  | regenerated (answer : Except Fault Unit) (hchange : c.isEmpty = false)
      (hdrive : m.hasCloudInitDrive = true) :
      Wrote t m c [⟨.hypervisor t.region (.configure t.zone t.machine c), .ok ()⟩,
        ⟨.hypervisor t.region (.regenerateCloudInit t.zone t.machine), answer⟩] answer

inductive Knowing (t : Target) (network : ZoneNetwork) (m : Machine) :
    Trace → Except Fault (List GuestInterface) → Prop where
  | refused {trace : Trace} {e : Fault} (h : Refused t trace e) :
      Knowing t network m trace (.error e)
  | settled {xs : List Outcome} {trace : Trace} {answer : Except Fault Unit}
      (hxs : List.Forall₂ (Arises t network m) m.nics.entries xs)
      (hwrote : Wrote t m (change xs) trace answer) :
      Knowing t network m (xs.flatMap (·.taken) ++ trace) (answer.map fun _ => xs.map (·.view))

inductive Ran (t : Target) (m : Machine) : Trace → Except Fault (List GuestInterface) → Prop where
  | idle (hnics : m.nics.isEmpty = true) : Ran t m [] (.ok [])
  | refused (e : Fault) : Ran t m [⟨.capacity (.network t.region t.zone), .error e⟩] (.error e)
  | knowing (network : ZoneNetwork) {trace : Trace} {r : Except Fault (List GuestInterface)}
      (hnics : m.nics.isEmpty = false) (h : Knowing t network m trace r) :
      Ran t m (⟨.capacity (.network t.region t.zone), .ok network⟩ :: trace) r

theorem write_wrote (t : Target) (m : Machine) (c : Change) (views : List GuestInterface) :
    (do
      unless c.isEmpty do
        Hypervisor.send t.region (.configure t.zone t.machine c)
        if m.hasCloudInitDrive then
          Hypervisor.send t.region (.regenerateCloudInit t.zone t.machine)
      return views : Job (List GuestInterface)).Ensures fun trace r =>
        ∃ answer, Wrote t m c trace answer ∧ r = answer.map fun _ => views := by
  dsimp only
  split
  · next hchange => exact (Job.ensures_pure _ _).2 ⟨.ok (), .nothing hchange, rfl⟩
  · next hchange =>
    have hchange : c.isEmpty = false := by simpa using hchange
    rw [Job.ensures_bind, Hypervisor.ensures_send]
    rintro (e | ⟨⟩)
    · exact ⟨.error e, .refused e hchange, rfl⟩
    dsimp only
    split
    · next hdrive =>
      rw [Job.ensures_bind, Hypervisor.ensures_send]
      rintro (e | ⟨⟩)
      · exact ⟨.error e, .regenerated _ hchange hdrive, rfl⟩
      · exact (Job.ensures_pure _ _).2 ⟨.ok (), .regenerated _ hchange hdrive, rfl⟩
    · next hdrive =>
      exact (Job.ensures_pure _ _).2 ⟨.ok (), .plain hchange (by simpa using hdrive), rfl⟩

theorem configure_ran (t : Target) (m : Machine) : (configure t m).Ensures (Ran t m) := by
  unfold configure
  split
  · next hnics => exact (Job.ensures_pure _ _).2 (.idle hnics)
  next hnics =>
  have hnics : m.nics.isEmpty = false := by simpa using hnics
  rw [Job.ensures_bind, Capacity.ensures_send]
  rintro (e | network)
  · exact .refused e
  refine Job.Ensures.bind (settleAll_ends network m _ _) ?_ ?_
  · rintro _ _ (⟨_, ⟨⟩, xs, hxs, rfl, rfl⟩ | ⟨_, ⟨⟩, _⟩)
    refine (write_wrote t m (change xs) (xs.map (·.view))).mono ?_
    rintro trace _ ⟨answer, hwrote, rfl⟩
    exact .knowing network hnics (.settled hxs hwrote)
  · rintro trace _ (⟨_, ⟨⟩, _⟩ | ⟨e, ⟨⟩, hrefused⟩)
    exact .knowing network hnics (.refused hrefused)

/-! ### The change -/

theorem numbered_inj {device device' : String} (hdevice : device ∈ Setting.numberedDevices)
    (hdevice' : device' ∈ Setting.numberedDevices) {i i' : UInt8}
    (h : Setting.numbered device i = Setting.numbered device' i') : device = device' ∧ i = i' := by
  have hdistinct : ∀ d ∈ Setting.numberedDevices, ∀ d' ∈ Setting.numberedDevices, d ≠ d' →
      ¬ d.toList <+: d'.toList ∧ ¬ d'.toList <+: d.toList := by decide
  have hread := Setting.index?_numbered device i
  rw [h] at hread
  by_cases hsame : device = device'
  · subst hsame
    rw [Setting.index?_numbered] at hread
    exact ⟨rfl, (Option.some.inj hread).symm⟩
  · rw [Setting.index?_numbered_of_ne i' (hdistinct _ hdevice' _ hdevice (Ne.symm hsame))] at hread
    cases hread

inductive Outcome.Sets (x : Outcome) : String → String → Prop where
  | nic (h : x.after ≠ x.before) : Sets x (Setting.numbered "net" x.index) x.after.render
  | addressing (h : x.current ≠ some x.settled) :
      Sets x (Setting.numbered "ipconfig" x.index) x.settled.render

theorem Outcome.mem_orders {x : Outcome} {key value : String} :
    (key, value) ∈ x.orders ↔ x.Sets key value := by
  unfold orders
  rw [List.mem_append]
  constructor
  · rintro (h | h)
    · split at h
      · cases h
      · next hne =>
        cases List.mem_singleton.1 h
        exact .nic hne
    · split at h
      · cases h
      · next hne =>
        cases List.mem_singleton.1 h
        exact .addressing hne
  · rintro (h | h)
    · simp [h]
    · simp [h]

theorem net_ne_ipconfig (i j : UInt8) :
    Setting.numbered "net" i ≠ Setting.numbered "ipconfig" j := by
  intro h
  exact absurd (numbered_inj (by decide) (by decide) h).1 (by decide)

theorem Outcome.Sets.of_net {x : Outcome} {i : UInt8} {value : String}
    (h : x.Sets (Setting.numbered "net" i) value) :
    x.index = i ∧ x.after ≠ x.before ∧ value = x.after.render := by
  generalize hkey : Setting.numbered "net" i = key at h
  cases h with
  | nic h => exact ⟨(numbered_inj (by decide) (by decide) hkey).2.symm, h, rfl⟩
  | addressing => exact absurd hkey (net_ne_ipconfig _ _)

theorem Outcome.Sets.of_ipconfig {x : Outcome} {i : UInt8} {value : String}
    (h : x.Sets (Setting.numbered "ipconfig" i) value) :
    x.index = i ∧ x.current ≠ some x.settled ∧ value = x.settled.render := by
  generalize hkey : Setting.numbered "ipconfig" i = key at h
  cases h with
  | nic => exact absurd hkey.symm (net_ne_ipconfig _ _)
  | addressing h => exact ⟨(numbered_inj (by decide) (by decide) hkey).2.symm, h, rfl⟩

/-- Two outcomes set one option to the same value, if no two are of one interface. -/
theorem Outcome.Sets.unique {x x' : Outcome} {key value value' : String} (h : x.Sets key value)
    (h' : x'.Sets key value') (hindex : x'.index = x.index → x' = x) : value' = value := by
  cases h with
  | nic =>
    obtain ⟨hx, -, rfl⟩ := h'.of_net
    rw [hindex hx]
  | addressing =>
    obtain ⟨hx, -, rfl⟩ := h'.of_ipconfig
    rw [hindex hx]

theorem map_index {network : ZoneNetwork} {m : Machine} {nics : List (UInt8 × Nic)}
    {xs : List Outcome} (h : List.Forall₂ (Arises t network m) nics xs) :
    xs.map (·.index) = nics.map (·.1) := by
  induction h with
  | nil => rfl
  | cons hx _ ih =>
    obtain ⟨v4, v6, rfl⟩ := hx
    exact congrArg (_ :: ·) ih

theorem index_inj {network : ZoneNetwork} {m : Machine} {xs : List Outcome}
    (h : List.Forall₂ (Arises t network m) m.nics.entries xs) {x x' : Outcome} (hx : x ∈ xs)
    (hx' : x' ∈ xs) (hindex : x.index = x'.index) : x = x' := by
  have hnodup : (xs.map (·.index)).Nodup := by
    rw [map_index h]
    exact List.pairwise_map.2 (m.nics.ascending.imp KeyMap.ne_of_lt)
  exact List.inj_on_of_nodup_map hnodup hx hx' hindex

theorem get?_change {network : ZoneNetwork} {m : Machine} {xs : List Outcome}
    (h : List.Forall₂ (Arises t network m) m.nics.entries xs) {key value : String} :
    (change xs).set.get? key = some value ↔ ∃ x ∈ xs, x.Sets key value := by
  constructor
  · intro hget
    rcases Change.mem_of_get?_putAll hget with hmem | hempty
    · obtain ⟨x, hx, hmem⟩ := List.mem_flatMap.1 hmem
      exact ⟨x, hx, Outcome.mem_orders.1 hmem⟩
    · cases hempty
  · rintro ⟨x, hx, hsets⟩
    rw [change, Change.set_putAll]
    apply KeyMap.get?_foldl_insert_of_sole
    · exact List.mem_flatMap.2 ⟨x, hx, Outcome.mem_orders.2 hsets⟩
    · intro value' hvalue'
      obtain ⟨x', hx', hsets'⟩ := List.mem_flatMap.1 hvalue'
      exact hsets.unique (Outcome.mem_orders.1 hsets') (index_inj h hx' hx)

theorem delete_change (xs : List Outcome) : (change xs).delete = ∅ := Change.putAll_delete rfl _

theorem isEmpty_change {network : ZoneNetwork} {m : Machine} {xs : List Outcome}
    (h : List.Forall₂ (Arises t network m) m.nics.entries xs) :
    (change xs).isEmpty = true ↔ ∀ x ∈ xs, x.after = x.before ∧ x.current = some x.settled := by
  constructor
  · intro hempty x hx
    have hnone (key value : String) : ¬ x.Sets key value := by
      intro hsets
      have hget := (get?_change h).2 ⟨x, hx, hsets⟩
      simp only [Change.isEmpty, KeyMap.isEmpty, Bool.and_eq_true, List.isEmpty_iff] at hempty
      simp [KeyMap.get?, hempty.1, KeyMap.find] at hget
    constructor
    · by_contra hne
      exact hnone _ _ (.nic hne)
    · by_contra hne
      exact hnone _ _ (.addressing hne)
  · intro hall
    have horders : xs.flatMap (·.orders) = [] := by
      apply List.flatMap_eq_nil_iff.2
      intro x hx
      simp [Outcome.orders, hall x hx]
    rw [change, horders]
    rfl

theorem not_mem_of_calls {trace : Trace}
    (h : ∀ event ∈ trace, ∃ name family, event.call = occupyCall t name family) {region : String}
    {request : Hypervisor.Request} {reply : Except Fault request.Answer} :
    ⟨.hypervisor region request, reply⟩ ∉ trace := by
  intro hmem
  obtain ⟨name, family, hcall⟩ := h _ hmem
  cases hcall

theorem Refused.calls {trace : Trace} {e : Fault} (h : Refused t trace e) :
    ∀ event ∈ trace, ∃ name family, event.call = occupyCall t name family := by
  obtain ⟨before, name, family, rfl, hbefore⟩ := h
  apply List.forall_mem_append.2 ⟨hbefore, ?_⟩
  simp [occupyCall]

theorem Ran.of_configure {m : Machine} {trace : Trace} {r : Except Fault (List GuestInterface)}
    (h : Ran t m trace r) {region zone : String} {machine : MachineId} {c : Change}
    {reply : Except Fault Unit}
    (hmem : ⟨.hypervisor region (.configure zone machine c), reply⟩ ∈ trace) :
    ∃ network xs, ⟨.capacity (.network t.region t.zone), .ok network⟩ ∈ trace ∧
      List.Forall₂ (Arises t network m) m.nics.entries xs ∧ c = change xs := by
  cases h with
  | idle => cases hmem
  | refused => simp at hmem
  | knowing network _ h =>
    have hmem := List.mem_of_ne_of_mem (by simp) hmem
    cases h with
    | refused h => exact absurd hmem (not_mem_of_calls h.calls)
    | @settled xs _ _ hxs hwrote =>
      rcases List.mem_append.1 hmem with hmem | hmem
      · exact absurd hmem (not_mem_of_calls (call_of_arises hxs))
      · refine ⟨network, xs, List.mem_cons_self, hxs, ?_⟩
        cases hwrote <;> simp_all

end NodeProvisioner.Networking

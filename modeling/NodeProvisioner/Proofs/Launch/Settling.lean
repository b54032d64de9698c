import NodeProvisioner.Proofs.Device.Normalising
import NodeProvisioner.Proofs.Launch.Networking

/-! Settled interfaces stay as they are. A run leaves no placeholder and sets only what changed;
where what it sets can be read back, a second run on the options that come of it finds nothing to
do and gives the guest the same view. -/
namespace NodeProvisioner

namespace Networking
open Setting (Place)
variable {t : Target} {network : ZoneNetwork} {o : Options} {m : Machine} {xs : List Outcome}

/-! ### One interface -/

/-- The addresses that were taken can be written and are none of the words for other assignments. -/
def AddressesClean (trace : Trace) : Prop :=
  ∀ region zone name machine family address,
    ⟨.capacity (.occupyAddress region zone name machine family), .ok address⟩ ∈ trace →
      (Assignment.fixed address).Writable

theorem AddressesClean.mono {trace trace' : Trace} (h : AddressesClean trace)
    (hsub : trace' ⊆ trace) : AddressesClean trace' :=
  fun region zone name machine family address hmem =>
    h region zone name machine family address (hsub hmem)

theorem subset_flatMap_taken {x : Outcome} (hx : x ∈ xs) : x.taken ⊆ xs.flatMap (·.taken) :=
  fun _ hevent => List.mem_flatMap.2 ⟨x, hx, hevent⟩

theorem writable_current (hm : Machine.ofOptions o = .ok m) {i : UInt8} {a : Addressing}
    (h : m.addressing.get? i = some a) : a.Writable := by
  have hat : m.at? (.addressing i) = some (.addressing i a) := by simp [Machine.at?, h]
  obtain ⟨key, value, -, hread⟩ := Machine.exists_option_of_at? hm hat
  exact Addressing.writable_of_parse (Setting.parse_of_read_addressing hread)

theorem writable_default (bridge : Option Bridge) : (defaultAddressing bridge).Writable := by
  constructor <;> unfold defaultAddressing
  · intro i hi
    obtain rfl := Option.some.inj hi
    split <;> exact nofun
  · exact nofun
  · intro i hi
    simp only [Option.mem_def, Option.ite_none_right_eq_some] at hi
    obtain ⟨-, ⟨⟩⟩ := hi
    exact nofun
  · exact nofun

theorem writable_wanted (hm : Machine.ofOptions o = .ok m) (i : UInt8) (nic : Nic) :
    (Outcome.wanted network m i nic).Writable := by
  unfold Outcome.wanted
  cases h : m.addressing.get? i with
  | none => exact writable_default _
  | some a => exact writable_current hm h

section filled
variable {name v4 v6 : String} {bridge : Option Bridge} {a : Addressing}

theorem writable_ip_filled (ha : a.Writable) (haddresses : AddressesClean (taken t name v4 v6 a)) :
    ∀ i ∈ (filled bridge v4 v6 a).ip, i.Writable := by
  rw [ip_filled]
  split
  · next hhost =>
    rintro _ ⟨⟩
    exact haddresses t.region t.zone name t.machine .v4 v4 (by simp [taken, occupied, hhost])
  · exact ha.ip

theorem writable_ip6_filled (ha : a.Writable) (haddresses : AddressesClean (taken t name v4 v6 a)) :
    ∀ i ∈ (filled bridge v4 v6 a).ip6, i.Writable := by
  rw [ip6_filled]
  split
  · next hhost =>
    rintro _ ⟨⟩
    exact haddresses t.region t.zone name t.machine .v6 v6 (by simp [taken, occupied, hhost])
  · exact ha.ip6

theorem value_of_orElse {own : Option String} {other : Bridge → Option String}
    (hown : ∀ g ∈ own, Text.Value g) (hother : ∀ b ∈ bridge, ∀ g ∈ other b, Text.Value g) :
    ∀ g ∈ own <|> bridge.bind other, Text.Value g := by
  cases own with
  | some _ => exact hown
  | none =>
    intro g hg
    obtain ⟨b, hb, hg⟩ := Option.bind_eq_some_iff.1 hg
    exact hother b hb g hg

theorem value_gateway_filled (ha : a.Writable)
    (hbridge : ∀ b ∈ bridge, ∀ g ∈ b.ipv4Gateway, Text.Value g) :
    ∀ g ∈ (filled bridge v4 v6 a).gateway, Text.Value g := by
  rw [gateway_filled]
  split
  · exact value_of_orElse ha.gateway hbridge
  · exact ha.gateway

theorem value_gateway6_filled (ha : a.Writable)
    (hbridge : ∀ b ∈ bridge, ∀ g ∈ b.ipv6Gateway, Text.Value g) :
    ∀ g ∈ (filled bridge v4 v6 a).gateway6, Text.Value g := by
  rw [gateway6_filled]
  split
  · exact value_of_orElse ha.gateway6 hbridge
  · exact ha.gateway6

end filled

/-! ### The options that come of a run -/

/-- What was set can be read back: no other option speaks of the same, the model and the address of
an interface that is written anew can stand in front of it, and so can the gateways. -/
structure Rereadable (o : Options) (xs : List Outcome) : Prop where
  sole : ∀ x ∈ xs, ∀ key value, x.Sets key value →
    ∀ e ∈ o.entries, Place.ofKey e.1 = Place.ofKey key → e.1 = key
  nic : ∀ x ∈ xs, x.after ≠ x.before → x.before.model ∈ Nic.models ∧ x.before.mac ≠ some ""
  gateway : ∀ x ∈ xs, ∀ g ∈ x.settled.gateway, Text.Value g
  gateway6 : ∀ x ∈ xs, ∀ g ∈ x.settled.gateway6, Text.Value g

theorem ofKey_net (i : UInt8) : Place.ofKey (Setting.numbered "net" i) = .nic i :=
  Place.ofKey_of_ofDevice (Place.ofDevice_nic i) nofun

theorem ofKey_ipconfig (i : UInt8) : Place.ofKey (Setting.numbered "ipconfig" i) = .addressing i :=
  Place.ofKey_of_ofDevice (Place.ofDevice_addressing i) nofun

theorem Outcome.Sets.key_ofKey {x : Outcome} {key value : String} (h : x.Sets key value) :
    (Place.ofKey key).key = key := by
  cases h with
  | nic => rw [ofKey_net, Place.key]
  | addressing => rw [ofKey_ipconfig, Place.key]

theorem rereadable_of_arises (hm : Machine.ofOptions o = .ok m)
    (hxs : List.Forall₂ (Arises t network m) m.nics.entries xs)
    (hsole : ∀ e ∈ o.entries, ∀ i ∈ m.nics.entries.map (·.1),
      (Place.ofKey e.1 = .nic i → e.1 = Setting.numbered "net" i) ∧
        (Place.ofKey e.1 = .addressing i → e.1 = Setting.numbered "ipconfig" i))
    (hnic : ∀ e ∈ m.nics.entries, e.2.model ∈ Nic.models ∧ e.2.mac ≠ some "")
    (hgateway : ∀ b ∈ network, (∀ g ∈ b.ipv4Gateway, Text.Value g) ∧
      ∀ g ∈ b.ipv6Gateway, Text.Value g) : Rereadable o xs := by
  have hbridge {name : String} : ∀ b ∈ network.bridge? name, b ∈ network :=
    fun b hb => List.mem_of_find?_eq_some hb
  constructor
  case sole =>
    intro x hx key value hsets e he hplace
    have hindex : x.index ∈ m.nics.entries.map (·.1) := by
      rw [← map_index hxs]
      exact List.mem_map_of_mem hx
    cases hsets with
    | nic => exact (hsole e he x.index hindex).1 (hplace.trans (ofKey_net _))
    | addressing => exact (hsole e he x.index hindex).2 (hplace.trans (ofKey_ipconfig _))
  case nic =>
    intro x hx _
    obtain ⟨e, he, v4, v6, rfl⟩ := (mem_of_forall₂ hxs).2 x hx
    exact hnic e he
  case gateway =>
    intro x hx
    obtain ⟨e, he, v4, v6, rfl⟩ := (mem_of_forall₂ hxs).2 x hx
    have hwanted : (Outcome.wanted network m e.1 e.2).Writable := writable_wanted hm e.1 e.2
    exact value_gateway_filled hwanted fun b hb g hg => (hgateway b (hbridge b hb)).1 g hg
  case gateway6 =>
    intro x hx
    obtain ⟨e, he, v4, v6, rfl⟩ := (mem_of_forall₂ hxs).2 x hx
    have hwanted : (Outcome.wanted network m e.1 e.2).Writable := writable_wanted hm e.1 e.2
    exact value_gateway6_filled hwanted fun b hb g hg => (hgateway b (hbridge b hb)).2 g hg

@[simp] theorem model_withBridgeMtu (nic : Nic) (bridge : Option Bridge) :
    (withBridgeMtu nic bridge).model = nic.model := by
  unfold withBridgeMtu
  split <;> rfl

@[simp] theorem mac_withBridgeMtu (nic : Nic) (bridge : Option Bridge) :
    (withBridgeMtu nic bridge).mac = nic.mac := by
  unfold withBridgeMtu
  split <;> rfl

@[simp] theorem bridge_withBridgeMtu (nic : Nic) (bridge : Option Bridge) :
    (withBridgeMtu nic bridge).bridge = nic.bridge := by
  unfold withBridgeMtu
  split <;> rfl

@[simp] theorem withBridgeMtu_twice (nic : Nic) (bridge : Option Bridge) :
    withBridgeMtu (withBridgeMtu nic bridge) bridge = withBridgeMtu nic bridge := by
  unfold withBridgeMtu
  split <;> split <;> simp_all

/-! ### Reading them -/

section again
variable {m' : Machine}

inductive Outcome.Gives (x : Outcome) : Setting → Prop where
  | nic (h : x.after ≠ x.before) : Gives x (.nic x.index x.after)
  | addressing (h : x.current ≠ some x.settled) : Gives x (.addressing x.index x.settled)

theorem Outcome.Sets.gives {x : Outcome} {key value : String} (h : x.Sets key value) :
    ∃ s, x.Gives s ∧ s.write = (key, value) := by
  cases h with
  | nic h => exact ⟨_, .nic h, rfl⟩
  | addressing h => exact ⟨_, .addressing h, rfl⟩

theorem Outcome.Gives.sets {x : Outcome} {s : Setting} (h : x.Gives s) :
    x.Sets s.write.1 s.write.2 := by
  cases h with
  | nic h => exact .nic h
  | addressing h => exact .addressing h

theorem Outcome.Gives.ofKey_key {x : Outcome} {s : Setting} (h : x.Gives s) :
    Place.ofKey s.write.1 = s.place := by
  cases h with
  | nic => exact ofKey_net _
  | addressing => exact ofKey_ipconfig _

theorem parse_before (hm : Machine.ofOptions o = .ok m)
    (hxs : List.Forall₂ (Arises t network m) m.nics.entries xs) {x : Outcome} (hx : x ∈ xs) :
    ∃ s, Nic.parse s = .ok x.before := by
  obtain ⟨e, he, v4, v6, rfl⟩ := (mem_of_forall₂ hxs).2 x hx
  have hat : m.at? (.nic e.1) = some (.nic e.1 e.2) := by
    simp [Machine.at?, KeyMap.mem_entries.1 he]
  obtain ⟨key, value, -, hread⟩ := Machine.exists_option_of_at? hm hat
  exact ⟨value, Setting.parse_of_read_nic hread⟩

theorem parse_after (hm : Machine.ofOptions o = .ok m)
    (hxs : List.Forall₂ (Arises t network m) m.nics.entries xs) {x : Outcome} (hx : x ∈ xs)
    (hmodel : x.before.model ∈ Nic.models) (hmac : x.before.mac ≠ some "") :
    Nic.parse x.after.render = .ok x.after := by
  obtain ⟨s, hparse⟩ := parse_before hm hxs hx
  obtain ⟨e, -, v4, v6, rfl⟩ := (mem_of_forall₂ hxs).2 x hx
  apply Nic.parse_render
  · simpa [Outcome.of] using hmodel
  · intro mac hafter
    have hbefore : mac ∈ e.2.mac := by simpa [Outcome.of] using hafter
    refine ⟨Nic.value_of_mac hparse mac hbefore, ?_⟩
    cases hempty : mac.isEmpty with
    | false => rfl
    | true =>
      rw [String.isEmpty_iff.1 hempty] at hbefore
      exact absurd hbefore hmac
  · simpa [Outcome.of] using Nic.value_of_bridge (Nic.readOf_of_parse hparse)

theorem parse_settled (hm : Machine.ofOptions o = .ok m)
    (hxs : List.Forall₂ (Arises t network m) m.nics.entries xs)
    (haddresses : AddressesClean (xs.flatMap (·.taken))) (hagain : Rereadable o xs) {x : Outcome}
    (hx : x ∈ xs) : Addressing.parse x.settled.render = .ok x.settled := by
  have hgateway := hagain.gateway x hx
  have hgateway6 := hagain.gateway6 x hx
  have htaken : AddressesClean x.taken := haddresses.mono (subset_flatMap_taken hx)
  obtain ⟨e, -, v4, v6, rfl⟩ := (mem_of_forall₂ hxs).2 x hx
  have hwanted : (Outcome.wanted network m e.1 e.2).Writable := writable_wanted hm e.1 e.2
  apply Addressing.Writable.parse_render
  exact ⟨writable_ip_filled hwanted htaken, hgateway, writable_ip6_filled hwanted htaken, hgateway6⟩

theorem Outcome.Gives.read (hm : Machine.ofOptions o = .ok m)
    (hxs : List.Forall₂ (Arises t network m) m.nics.entries xs)
    (haddresses : AddressesClean (xs.flatMap (·.taken))) (hagain : Rereadable o xs) {x : Outcome}
    (hx : x ∈ xs) {s : Setting} (h : x.Gives s) : Setting.read s.write.1 s.write.2 = .ok s := by
  rw [Setting.read_eq, h.ofKey_key]
  cases h with
  | nic hne =>
    obtain ⟨hmodel, hmac⟩ := hagain.nic x hx hne
    exact congrArg ((Setting.nic x.index ·) <$> ·) (parse_after hm hxs hx hmodel hmac)
  | addressing =>
    exact congrArg ((Setting.addressing x.index ·) <$> ·)
      (parse_settled hm hxs haddresses hagain hx)

theorem readable_again (hm : Machine.ofOptions o = .ok m)
    (hxs : List.Forall₂ (Arises t network m) m.nics.entries xs)
    (haddresses : AddressesClean (xs.flatMap (·.taken))) (hagain : Rereadable o xs) :
    ∃ m', Machine.ofOptions ((change xs).applyTo o) = .ok m' := by
  apply Machine.readable_iff.1
  apply Change.readable_applyTo
  · intro key value hset
    obtain ⟨x, hx, hsets⟩ := (get?_change hxs).1 hset
    obtain ⟨s, hgives, hwrite⟩ := hsets.gives
    have hread := hgives.read hm hxs haddresses hagain hx
    rw [hwrite] at hread
    exact ⟨s, hread⟩
  · exact Machine.readable_iff.2 ⟨m, hm⟩

theorem at?_given (hm : Machine.ofOptions o = .ok m)
    (hm' : Machine.ofOptions ((change xs).applyTo o) = .ok m')
    (hxs : List.Forall₂ (Arises t network m) m.nics.entries xs)
    (haddresses : AddressesClean (xs.flatMap (·.taken))) (hagain : Rereadable o xs) {x : Outcome}
    (hx : x ∈ xs) {s : Setting} (h : x.Gives s) : m'.at? s.place = some s := by
  have hset : (change xs).set.get? s.write.1 = some s.write.2 := (get?_change hxs).2 ⟨x, hx, h.sets⟩
  have hgiven : s.isGiven = true := by cases h <;> rfl
  rw [← h.ofKey_key, Machine.at?_of_set hm' hset (h.read hm hxs haddresses hagain hx), hgiven]
  · rfl
  · rintro key value (hother | hother) hplace
    · obtain ⟨x', hx', hsets'⟩ := (get?_change hxs).1 hother
      rw [← hsets'.key_ofKey, hplace, h.sets.key_ofKey]
    · exact hagain.sole x hx _ _ h.sets (key, value) (KeyMap.mem_entries.2 hother) hplace

theorem at?_ungiven (hm : Machine.ofOptions o = .ok m)
    (hm' : Machine.ofOptions ((change xs).applyTo o) = .ok m')
    (hxs : List.Forall₂ (Arises t network m) m.nics.entries xs) {p : Place}
    (h : ∀ x ∈ xs, ∀ s, x.Gives s → s.place ≠ p) : m'.at? p = m.at? p := by
  apply Machine.at?_of_unset hm hm' (delete_change xs)
  intro key value hset
  obtain ⟨x, hx, hsets⟩ := (get?_change hxs).1 hset
  obtain ⟨s, hgives, hwrite⟩ := hsets.gives
  have hkey : s.write.1 = key := congrArg Prod.fst hwrite
  rw [← hkey, hgives.ofKey_key]
  exact h x hx s hgives

theorem at?_again (hm : Machine.ofOptions o = .ok m)
    (hm' : Machine.ofOptions ((change xs).applyTo o) = .ok m')
    (hxs : List.Forall₂ (Arises t network m) m.nics.entries xs)
    (haddresses : AddressesClean (xs.flatMap (·.taken))) (hagain : Rereadable o xs) {x : Outcome}
    (hx : x ∈ xs) {s : Setting}
    (hown : ∀ x' ∈ xs, ∀ s', x'.Gives s' → s'.place = s.place → x'.index = x.index)
    (hsole : ∀ s', x.Gives s' → s'.place = s.place → x.Gives s)
    (hbefore : ¬ x.Gives s → m.at? s.place = some s) : m'.at? s.place = some s := by
  by_cases hgives : x.Gives s
  · exact at?_given hm hm' hxs haddresses hagain hx hgives
  · rw [at?_ungiven hm hm' hxs, hbefore hgives]
    intro x' hx' s' hgives' hplace
    obtain rfl := index_inj hxs hx' hx (hown x' hx' s' hgives' hplace)
    exact hgives (hsole s' hgives' hplace)

theorem Outcome.Gives.index_of_nic {x : Outcome} {s : Setting} {i : UInt8} (h : x.Gives s)
    (hplace : s.place = .nic i) : x.index = i ∧ x.after ≠ x.before := by
  cases h with
  | nic hne => exact ⟨Place.nic.inj hplace, hne⟩
  | addressing => cases hplace

theorem Outcome.Gives.index_of_addressing {x : Outcome} {s : Setting} {i : UInt8} (h : x.Gives s)
    (hplace : s.place = .addressing i) : x.index = i ∧ x.current ≠ some x.settled := by
  cases h with
  | nic => cases hplace
  | addressing hne => exact ⟨Place.addressing.inj hplace, hne⟩

theorem nic_again (hm : Machine.ofOptions o = .ok m)
    (hm' : Machine.ofOptions ((change xs).applyTo o) = .ok m')
    (hxs : List.Forall₂ (Arises t network m) m.nics.entries xs)
    (haddresses : AddressesClean (xs.flatMap (·.taken))) (hagain : Rereadable o xs) {x : Outcome}
    (hx : x ∈ xs) : m'.nics.get? x.index = some x.after := by
  have hat : m'.at? (.nic x.index) = some (.nic x.index x.after) := by
    apply at?_again hm hm' hxs haddresses hagain hx (s := .nic x.index x.after)
    · exact fun x' _ s' hgives hplace => (hgives.index_of_nic hplace).1
    · exact fun s' hgives hplace => .nic (hgives.index_of_nic hplace).2
    · intro hkept
      have hsame : x.after = x.before := not_not.1 fun hne => hkept (.nic hne)
      rw [hsame]
      obtain ⟨e, he, v4, v6, rfl⟩ := (mem_of_forall₂ hxs).2 x hx
      exact congrArg (Option.map _) (KeyMap.mem_entries.1 he)
  obtain ⟨_, hget, heq⟩ := Option.map_eq_some_iff.1 hat
  rw [hget, (Setting.nic.inj heq).2]

theorem addressing_again (hm : Machine.ofOptions o = .ok m)
    (hm' : Machine.ofOptions ((change xs).applyTo o) = .ok m')
    (hxs : List.Forall₂ (Arises t network m) m.nics.entries xs)
    (haddresses : AddressesClean (xs.flatMap (·.taken))) (hagain : Rereadable o xs) {x : Outcome}
    (hx : x ∈ xs) : m'.addressing.get? x.index = some x.settled := by
  have hat : m'.at? (.addressing x.index) = some (.addressing x.index x.settled) := by
    apply at?_again hm hm' hxs haddresses hagain hx (s := .addressing x.index x.settled)
    · exact fun x' _ s' hgives hplace => (hgives.index_of_addressing hplace).1
    · exact fun s' hgives hplace => .addressing (hgives.index_of_addressing hplace).2
    · intro hkept
      have hsame : x.current = some x.settled := not_not.1 fun hne => hkept (.addressing hne)
      obtain ⟨e, he, v4, v6, rfl⟩ := (mem_of_forall₂ hxs).2 x hx
      exact congrArg (Option.map _) hsame
  obtain ⟨_, hget, heq⟩ := Option.map_eq_some_iff.1 hat
  rw [hget, (Setting.addressing.inj heq).2]

theorem nics_again (hm : Machine.ofOptions o = .ok m)
    (hm' : Machine.ofOptions ((change xs).applyTo o) = .ok m')
    (hxs : List.Forall₂ (Arises t network m) m.nics.entries xs)
    (haddresses : AddressesClean (xs.flatMap (·.taken))) (hagain : Rereadable o xs) :
    m'.nics.entries = xs.map fun x => (x.index, x.after) := by
  have hkeys : (xs.map fun x => (x.index, x.after)).map (·.1) = m.nics.entries.map (·.1) := by
    rw [← map_index hxs, List.map_map]
    rfl
  have hascending : ((xs.map fun x => (x.index, x.after)).map (·.1)).Pairwise
      fun a b => compare a b = .lt := by
    rw [hkeys]
    exact List.pairwise_map.2 m.nics.ascending
  apply KeyMap.entries_eq
  · exact List.pairwise_map.1 hascending
  · rintro ⟨i, n⟩
    constructor
    · intro hmem
      obtain ⟨x, hx, heq⟩ := List.mem_map.1 hmem
      cases heq
      exact nic_again hm hm' hxs haddresses hagain hx
    · intro hget
      by_cases hi : i ∈ xs.map (·.index)
      · obtain ⟨x, hx, rfl⟩ := List.mem_map.1 hi
        have hafter : x.after = n := Option.some.inj <|
          (nic_again hm hm' hxs haddresses hagain hx).symm.trans hget
        exact List.mem_map.2 ⟨x, hx, by rw [hafter]⟩
      -- an interface that was not there did not come
      · have hsame : m'.at? (.nic i) = m.at? (.nic i) := by
          apply at?_ungiven hm hm' hxs
          intro x hx s hgives hplace
          exact hi (List.mem_map.2 ⟨x, hx, (hgives.index_of_nic hplace).1⟩)
        have hthere : m.at? (.nic i) = some (.nic i n) :=
          hsame.symm.trans (congrArg (Option.map _) hget)
        obtain ⟨old, hold, -⟩ := Option.map_eq_some_iff.1 hthere
        have hmem : (i, old) ∈ m.nics.entries := KeyMap.mem_entries.2 hold
        rw [map_index hxs] at hi
        exact absurd (List.mem_map_of_mem hmem) hi

end again

/-! ### A run with nothing to do -/

structure Steady (network : ZoneNetwork) (m : Machine) (x : Outcome) : Prop where
  mtu : withBridgeMtu x.after (network.bridge? x.after.bridge) = x.after
  current : m.addressing.get? x.index = some x.settled
  filled : x.settled.hasPlaceholder = false

theorem settleAll_of_steady (h : ∀ x ∈ xs, Steady network m x) (c : Change) :
    settleAll t network m (xs.map fun x => (x.index, x.after)) c = pure (c, xs.map (·.view)) := by
  induction xs generalizing c with
  | nil => rfl
  | cons x xs ih =>
    obtain ⟨hx, hrest⟩ := List.forall_mem_cons.1 h
    obtain ⟨hip, hip6⟩ := ip_of_hasPlaceholder hx.filled
    have hv4 (bridge : Option Bridge) :
        settleV4 t x.after.bridge bridge x.settled = pure x.settled := if_neg hip
    have hv6 (bridge : Option Bridge) :
        settleV6 t x.after.bridge bridge x.settled = pure x.settled := if_neg hip6
    have hrecord : record c x.index x.after x.after (some x.settled) x.settled = c := by
      simp [record]
    simp only [List.map_cons, settleAll, hx.mtu, hx.current, Option.getD_some, hv4, Job.pure_bind,
      hv6, hrecord, ih hrest]
    rfl

theorem configure_of_steady (hnics : m.nics.entries = xs.map fun x => (x.index, x.after))
    (hsome : xs ≠ []) (h : ∀ x ∈ xs, Steady network m x) : (configure t m).Ensures fun trace r =>
      (∀ reply, ⟨.capacity (.network t.region t.zone), reply⟩ ∈ trace → reply = .ok network) →
        trace = [⟨.capacity (.network t.region t.zone), .ok network⟩] ∧
          r = .ok (xs.map (·.view)) := by
  have hbusy : m.nics.isEmpty = false := by
    rw [KeyMap.isEmpty, hnics]
    simpa using hsome
  unfold configure
  rw [if_neg (by simp [hbusy]), Job.ensures_bind, Capacity.ensures_send]
  rintro (e | network')
  · intro hreply
    cases hreply (.error e) List.mem_cons_self
  by_cases hsame : network' = network
  · subst hsame
    dsimp only
    rw [hnics, settleAll_of_steady h, Job.pure_bind]
    have hnothing : ({} : Change).isEmpty = true := rfl
    simp only [hnothing, if_true]
    exact (Job.ensures_pure _ _).2 fun _ => ⟨rfl, rfl⟩
  · intro trace r _ hreply
    exact absurd (Except.ok.inj (hreply _ List.mem_cons_self)) hsame

/-! ### A run and the next one -/

def occupyCalls (t : Target) (network : ZoneNetwork) (m : Machine) (e : UInt8 × Nic) : List Call :=
  (if (Outcome.wanted network m e.1 e.2).ip = some .host then [occupyCall t e.2.bridge .v4]
    else []) ++
  (if (Outcome.wanted network m e.1 e.2).ip6 = some .host then [occupyCall t e.2.bridge .v6]
    else [])

def writeCalls (t : Target) (m : Machine) (c : Change) : List Call :=
  if c.isEmpty then [] else
    .hypervisor t.region (.configure t.zone t.machine c) ::
      if m.hasCloudInitDrive then [.hypervisor t.region (.regenerateCloudInit t.zone t.machine)]
      else []

/-- The run came to an end, and so does any later one that is told of the same bridges. -/
structure Settled (t : Target) (o : Options) (m : Machine) (network : ZoneNetwork)
    (xs : List Outcome) (trace : Trace) (views : List GuestInterface) : Prop where
  outcomes : List.Forall₂ (Arises t network m) m.nics.entries xs
  told : ⟨.capacity (.network t.region t.zone), .ok network⟩ ∈ trace
  taken : ∀ x ∈ xs, x.taken ⊆ trace
  calls : trace.calls = .capacity (.network t.region t.zone) ::
    (m.nics.entries.flatMap (occupyCalls t network m) ++ writeCalls t m (change xs))
  view : views = xs.map (·.view)
  names : views.map (·.name) = m.nics.entries.map fun e => guestName e.1
  placed : ∀ v ∈ views, v.ipv4 ≠ some "host" ∧ v.ipv6 ≠ some "host"
  gateways : ∀ x ∈ xs, ∀ a ∈ x.current, (∀ g ∈ a.gateway, x.settled.gateway = some g) ∧
    ∀ g ∈ a.gateway6, x.settled.gateway6 = some g
  changed : (change xs).isEmpty = true ↔ ∀ x ∈ xs, x.after = x.before ∧ x.current = some x.settled
  set : ∀ key value, (change xs).set.get? key = some value ↔ ∃ x ∈ xs, x.Sets key value
  delete : (change xs).delete = ∅
  again : Rereadable o xs → ∃ m', Machine.ofOptions ((change xs).applyTo o) = .ok m' ∧
    ∀ trace' r', (configure t m').run.Yields trace' r' →
      (∀ reply, ⟨.capacity (.network t.region t.zone), reply⟩ ∈ trace' → reply = .ok network) →
        trace' = [⟨.capacity (.network t.region t.zone), .ok network⟩] ∧ r' = .ok views

theorem taken_calls (name v4 v6 : String) (a : Addressing) : (taken t name v4 v6 a).calls =
    (if a.ip = some .host then [occupyCall t name .v4] else []) ++
      (if a.ip6 = some .host then [occupyCall t name .v6] else []) := by
  unfold taken
  split <;> split <;> rfl

theorem calls_of_arises (hxs : List.Forall₂ (Arises t network m) m.nics.entries xs) :
    Trace.calls (xs.flatMap (·.taken)) = m.nics.entries.flatMap (occupyCalls t network m) := by
  generalize m.nics.entries = nics at hxs
  induction hxs with
  | nil => rfl
  | cons hx _ ih =>
    obtain ⟨v4, v6, rfl⟩ := hx
    rw [List.flatMap_cons, List.flatMap_cons, ← ih]
    exact (List.map_append ..).trans (congrArg (· ++ _) (taken_calls _ _ _ _))

theorem Wrote.calls {c : Change} {written : Trace} (h : Wrote t m c written (.ok ())) :
    written.calls = writeCalls t m c := by
  unfold writeCalls
  cases h with
  | nothing hchange => simp [hchange, Trace.calls]
  | plain hchange hdrive => simp [hchange, hdrive, Trace.calls]
  | regenerated _ hchange hdrive => simp [hchange, hdrive, Trace.calls]

theorem names_of_arises (hxs : List.Forall₂ (Arises t network m) m.nics.entries xs) :
    (xs.map (·.view)).map (·.name) = m.nics.entries.map fun e => guestName e.1 := by
  calc (xs.map (·.view)).map (·.name) = (xs.map (·.index)).map guestName := by
        simp only [List.map_map]
        rfl
    _ = m.nics.entries.map fun e => guestName e.1 := by rw [map_index hxs, List.map_map]; rfl

theorem render_ne_host {i : Option Assignment} (hi : ∀ a ∈ i, a.Writable) (hne : i ≠ some .host) :
    i.map Assignment.render ≠ some "host" := by
  intro h
  obtain ⟨a, ha, hrender⟩ := Option.map_eq_some_iff.1 h
  cases a with
  | dhcp => exact absurd hrender (by decide)
  | auto => exact absurd hrender (by decide)
  | host => exact hne ha
  | fixed cidr =>
    obtain rfl : cidr = "host" := hrender
    exact (hi _ ha _ rfl).2 (by decide)

theorem placed_of_arises (hm : Machine.ofOptions o = .ok m)
    (hxs : List.Forall₂ (Arises t network m) m.nics.entries xs)
    (haddresses : AddressesClean (xs.flatMap (·.taken))) {x : Outcome} (hx : x ∈ xs) :
    x.view.ipv4 ≠ some "host" ∧ x.view.ipv6 ≠ some "host" := by
  have htaken : AddressesClean x.taken := haddresses.mono (subset_flatMap_taken hx)
  obtain ⟨e, -, v4, v6, rfl⟩ := (mem_of_forall₂ hxs).2 x hx
  have hwanted : (Outcome.wanted network m e.1 e.2).Writable := writable_wanted hm e.1 e.2
  obtain ⟨hip, hip6⟩ := ip_of_hasPlaceholder (hasPlaceholder_filled _ _ _ _)
  exact ⟨render_ne_host (writable_ip_filled hwanted htaken) hip,
    render_ne_host (writable_ip6_filled hwanted htaken) hip6⟩

theorem gateways_of_arises (hxs : List.Forall₂ (Arises t network m) m.nics.entries xs) {x : Outcome}
    (hx : x ∈ xs) {a : Addressing} (ha : x.current = some a) :
    (∀ g ∈ a.gateway, x.settled.gateway = some g) ∧
      ∀ g ∈ a.gateway6, x.settled.gateway6 = some g := by
  obtain ⟨e, -, v4, v6, rfl⟩ := (mem_of_forall₂ hxs).2 x hx
  have hwanted : Outcome.wanted network m e.1 e.2 = a := by
    have hcurrent : m.addressing.get? e.1 = some a := ha
    simp [Outcome.wanted, hcurrent]
  constructor
  · intro g hg
    simp only [Outcome.of, hwanted, gateway_filled, Option.mem_def.1 hg]
    split <;> rfl
  · intro g hg
    simp only [Outcome.of, hwanted, gateway6_filled, Option.mem_def.1 hg]
    split <;> rfl

theorem steady_again {m' : Machine} (hm : Machine.ofOptions o = .ok m)
    (hm' : Machine.ofOptions ((change xs).applyTo o) = .ok m')
    (hxs : List.Forall₂ (Arises t network m) m.nics.entries xs)
    (haddresses : AddressesClean (xs.flatMap (·.taken))) (hagain : Rereadable o xs) {x : Outcome}
    (hx : x ∈ xs) : Steady network m' x := by
  have hcurrent := addressing_again hm hm' hxs haddresses hagain hx
  obtain ⟨e, -, v4, v6, rfl⟩ := (mem_of_forall₂ hxs).2 x hx
  refine ⟨?_, hcurrent, ?_⟩
  · simp [Outcome.of]
  · exact hasPlaceholder_filled _ _ _ _

/-- A run on what came of a run finds nothing to do. -/
theorem configure_again (hm : Machine.ofOptions o = .ok m) (hnics : m.nics.isEmpty = false)
    (hxs : List.Forall₂ (Arises t network m) m.nics.entries xs)
    (haddresses : AddressesClean (xs.flatMap (·.taken))) (hagain : Rereadable o xs) :
    ∃ m', Machine.ofOptions ((change xs).applyTo o) = .ok m' ∧
      (configure t m').Ensures fun trace r =>
        (∀ reply, ⟨.capacity (.network t.region t.zone), reply⟩ ∈ trace → reply = .ok network) →
          trace = [⟨.capacity (.network t.region t.zone), .ok network⟩] ∧
            r = .ok (xs.map (·.view)) := by
  obtain ⟨m', hm'⟩ := readable_again hm hxs haddresses hagain
  refine ⟨m', hm', ?_⟩
  have hsome : xs ≠ [] := by
    rintro rfl
    have hnone : m.nics.entries = [] := List.forall₂_nil_right_iff.1 hxs
    simp [KeyMap.isEmpty, hnone] at hnics
  apply configure_of_steady (nics_again hm hm' hxs haddresses hagain) hsome
  exact fun x hx => steady_again hm hm' hxs haddresses hagain hx

theorem settled_of_wrote {written : Trace} (hm : Machine.ofOptions o = .ok m)
    (hnics : m.nics.isEmpty = false) (hxs : List.Forall₂ (Arises t network m) m.nics.entries xs)
    (hwrote : Wrote t m (change xs) written (.ok ()))
    (haddresses : AddressesClean (xs.flatMap (·.taken))) :
    Settled t o m network xs (⟨.capacity (.network t.region t.zone), .ok network⟩ ::
      (xs.flatMap (·.taken) ++ written)) (xs.map (·.view)) := by
  constructor
  case outcomes => exact hxs
  case told => exact List.mem_cons_self
  case taken =>
    intro x hx event hevent
    simp [subset_flatMap_taken hx hevent]
  case calls =>
    rw [← calls_of_arises hxs, ← hwrote.calls]
    simp [Trace.calls]
  case view => rfl
  case names => exact names_of_arises hxs
  case placed =>
    intro v hv
    obtain ⟨x, hx, rfl⟩ := List.mem_map.1 hv
    exact placed_of_arises hm hxs haddresses hx
  case gateways => exact fun x hx a ha => gateways_of_arises hxs hx ha
  case changed => exact isEmpty_change hxs
  case set => exact fun key value => get?_change hxs
  case delete => exact delete_change xs
  case again => exact configure_again hm hnics hxs haddresses

/-- However a run goes, it ends as told; if it succeeds, nothing is left to do. -/
theorem configure_settles {trace : Trace} {r : Except Fault (List GuestInterface)}
    (hm : Machine.ofOptions o = .ok m) (hrun : (configure t m).run.Yields trace r)
    (haddresses : AddressesClean trace) : Ran t m trace r ∧ ∀ views, r = .ok views →
      m.nics.isEmpty = true ∧ trace = [] ∧ views = [] ∨
        ∃ network xs, Settled t o m network xs trace views := by
  have hran := configure_ran t m trace r hrun
  refine ⟨hran, ?_⟩
  rintro views rfl
  cases hran with
  | idle hnics => exact .inl ⟨hnics, rfl, rfl⟩
  | knowing network hnics h =>
    right
    generalize hr : Except.ok views = r at h
    cases h with
    | refused => cases hr
    | @settled xs written answer hxs hwrote =>
      cases answer with
      | error e => cases hr
      | ok u =>
        cases hr
        have hclean : AddressesClean (xs.flatMap (·.taken)) :=
          haddresses.mono fun event h => by simp [h]
        exact ⟨network, xs, settled_of_wrote hm hnics hxs hwrote hclean⟩

def bridgeWith (gateway : String) : (c : Call) → c.Reply
  | .capacity (.network _ _) => .ok [{
      name := "vmbr0", mtu := some 9000
      ipv4Subnet := some "10.0.0.0/24", ipv4Gateway := some gateway }]
  | .capacity (.occupyAddress _ _ _ _ _) => .ok "10.0.0.7/24"
  | c => c.grant

theorem addressesClean_of_replies {gateway : String} {trace : Trace}
    (h : ∀ e ∈ trace, e.reply = bridgeWith gateway e.call) : AddressesClean trace := by
  intro region zone name machine family address hmem
  have haddress : address = "10.0.0.7/24" := Except.ok.inj (h _ hmem)
  subst haddress
  rintro _ ⟨⟩
  decide

def sparse : Machine where
  nics := .ofList [(0, { model := "virtio", mac := some "AA", bridge := "vmbr0" }),
    (2, { model := "virtio", mac := some "BB", bridge := "vmbr0", mtu := some 1400 })]
  addressing := .ofList [(2, { ip := some .host, gateway := some "10.0.0.254" })]
  disks := .ofList [("ide2", { volume := "local:cloudinit", media := some "cdrom" })]

def sparseOptions : Options := .ofList [("net0", "virtio=AA,bridge=vmbr0"),
  ("net2", "virtio=BB,bridge=vmbr0,mtu=1400"), ("ipconfig2", "ip=host,gw=10.0.0.254"),
  ("ide2", "local:cloudinit,media=cdrom")]

theorem configure_settles_sparse : ∃ trace views network xs,
    Machine.ofOptions sparseOptions = .ok sparse ∧
      (configure ⟨"r1", "z1", 1000⟩ sparse).run.Yields trace (.ok views) ∧
      views.map (·.gateway4) = [some "10.0.0.1", some "10.0.0.254"] ∧
      Settled ⟨"r1", "z1", 1000⟩ sparseOptions sparse network xs trace views ∧
      Rereadable sparseOptions xs := by
  have hm : Machine.ofOptions sparseOptions = .ok sparse := by decide +kernel
  obtain ⟨trace, views, hrun, hgood, hreplies⟩ := Job.yields_of_replies (bridgeWith "10.0.0.1")
    (configure ⟨"r1", "z1", 1000⟩ sparse)
    (fun _ views => views.map (·.gateway4) == [some "10.0.0.1", some "10.0.0.254"])
    (by decide +kernel)
  obtain ⟨-, hends⟩ := configure_settles hm hrun (addressesClean_of_replies hreplies)
  rcases hends views rfl with ⟨hnics, -⟩ | ⟨network, xs, hsettled⟩
  · exact absurd hnics (by decide)
  · have hnetwork := Except.ok.inj (hreplies _ hsettled.told)
    subst hnetwork
    refine ⟨trace, views, _, xs, hm, hrun, beq_iff_eq.1 hgood, hsettled, ?_⟩
    apply rereadable_of_arises hm hsettled.outcomes
    · decide +kernel
    · decide +kernel
    · decide

def Call.change? : Call → Option Change
  | .hypervisor _ (.configure _ _ c) => some c
  | _ => none

/-- What is written can be read back, and another run on it that is told of the same bridges gives
the same and writes nothing. -/
def SettlesAgain (t : Target) (o : Options) : Prop :=
  ∀ m trace views, Machine.ofOptions o = .ok m → (configure t m).run.Yields trace (.ok views) →
    AddressesClean trace → ∀ call ∈ trace.calls, ∀ c ∈ Call.change? call,
      ∃ m', Machine.ofOptions (c.applyTo o) = .ok m' ∧
        ∀ trace' r', (configure t m').run.Yields trace' r' →
          (∀ reply, ⟨.capacity (.network t.region t.zone), reply⟩ ∈ trace' →
            ⟨.capacity (.network t.region t.zone), reply⟩ ∈ trace) →
          trace'.calls = [.capacity (.network t.region t.zone)] ∧ r' = .ok views

def settlesAgain (answer : (c : Call) → c.Reply) (t : Target) (o : Options) : Bool :=
  match Machine.ofOptions o with
  | .error _ => true
  | .ok m =>
    match (configure t m).run.play (fun _ => answer) [] with
    | (_, .error _) => true
    | (trace, .ok views) =>
      trace.calls.all fun call =>
        match Call.change? call with
        | none => true
        | some c =>
          match Machine.ofOptions (c.applyTo o) with
          | .error _ => false
          | .ok m' =>
            let again := (configure t m').run.play (fun _ => answer) []
            again.1.calls == [.capacity (.network t.region t.zone)] &&
              again.2.toOption == some views

theorem told_of_change {trace : Trace} {r : Except Fault (List GuestInterface)}
    (hran : Ran t m trace r) {call : Call} {c : Change} (hcall : call ∈ trace.calls)
    (hc : Call.change? call = some c) :
    ∃ network, ⟨.capacity (.network t.region t.zone), .ok network⟩ ∈ trace := by
  obtain ⟨⟨call, reply⟩, hevent, rfl⟩ := List.mem_map.1 hcall
  unfold Call.change? at hc
  split at hc
  · next heq =>
    cases heq
    obtain ⟨network, -, htold, -⟩ := hran.of_configure hevent
    exact ⟨network, htold⟩
  · cases hc

theorem not_settlesAgain_of_play (gateway : String)
    (h : settlesAgain (bridgeWith gateway) t o = false) : ¬ SettlesAgain t o := by
  intro hagain
  unfold settlesAgain at h
  split at h
  · cases h
  next m hm =>
  split at h
  · cases h
  next trace views hplay =>
  have hrun := Plan.yields_play (fun _ => bridgeWith gateway) [] (configure t m).run
  have hreplies := Plan.reply_of_mem_play (bridgeWith gateway) [] (configure t m).run
  rw [hplay] at hrun hreplies
  obtain ⟨call, hcall, hbad⟩ := List.all_eq_false.1 h
  split at hbad
  · exact hbad rfl
  next c hc =>
  obtain ⟨m', hm', hnext⟩ :=
    hagain m trace views hm hrun (addressesClean_of_replies hreplies) call hcall c hc
  obtain ⟨network, htold⟩ := told_of_change (configure_ran t m _ _ hrun) hcall hc
  have hsame := hreplies _ htold
  obtain ⟨hcalls, hviews⟩ := hnext _ _
    (Plan.yields_play (fun _ => bridgeWith gateway) [] (configure t m').run) fun reply hreply => by
      have hreply := Plan.reply_of_mem_play _ _ _ _ hreply
      simp only at hreply hsame
      rw [hreply, ← hsame]
      exact htold
  rw [hm'] at hbad
  simp [hcalls, hviews, Except.toOption] at hbad

/-- A second key for an interface, a model that cannot be written, an empty address, and a gateway
that cannot be written. -/
theorem not_settlesAgain :
    ¬ SettlesAgain ⟨"r1", "z1", 1000⟩ (.ofList [("net0", "virtio=AA,bridge=vmbr0,mtu=9000"),
      ("net00", "virtio=AA,bridge=vmbr0"), ("ipconfig0", "ip=dhcp")]) ∧
    ¬ SettlesAgain ⟨"r1", "z1", 1000⟩
      (.ofList [("net0", "model=foo,macaddr=AA,bridge=vmbr0"), ("ipconfig0", "ip=dhcp")]) ∧
    ¬ SettlesAgain ⟨"r1", "z1", 1000⟩
      (.ofList [("net0", "virtio,macaddr=,bridge=vmbr0"), ("ipconfig0", "ip=dhcp")]) ∧
    ¬ SettlesAgain ⟨"r1", "z1", 1000⟩ (.ofList [("net0", "virtio=AA,bridge=vmbr0,mtu=9000")]) := by
  refine ⟨?_, ?_, ?_, ?_⟩
  · exact not_settlesAgain_of_play "10.0.0.1" (by decide +kernel)
  · exact not_settlesAgain_of_play "10.0.0.1" (by decide +kernel)
  · exact not_settlesAgain_of_play "10.0.0.1" (by decide +kernel)
  · exact not_settlesAgain_of_play "10.0.0.1,x" (by decide +kernel)

end Networking
end NodeProvisioner

import NodeProvisioner.Proofs.Launch.Networking

/-! What is left of the text of an interface when it is written anew for the sake of its MTU. An
interface has four options besides its model, address and MTU; the text may have any. -/
namespace NodeProvisioner

namespace OptionText

def keyed (parts : List String) : List (String × String) := parts.filterMap (Text.cut? '=')

theorem mem_keyed_of_get? {s k v : String} (h : (parse s).get? k = some v)
    (hv : v.isEmpty = false) : (k, v) ∈ keyed (parts s) := by
  have hoptions : ∀ ps ⊆ parts s, (optionsOf ps).get? k = some v → (k, v) ∈ keyed (parts s) := by
    intro ps hps hget
    rcases KeyMap.mem_of_get?_foldl_insert hget with hmem | hempty
    · obtain ⟨p, hp, hoption⟩ := List.mem_map.1 hmem
      refine List.mem_filterMap.2 ⟨p, hps (List.mem_filter.1 hp).1, ?_⟩
      unfold option at hoption
      cases hcut : Text.cut? '=' p with
      | none =>
        rw [hcut] at hoption
        cases hoption
        cases hv
      | some kv =>
        rw [hcut] at hoption
        exact congrArg some hoption
    · cases hempty
  unfold parse at h
  cases hps : parts s with
  | nil =>
    rw [hps] at h
    cases h
  | cons first rest =>
    simp only [hps] at h hoptions
    split at h
    · exact hoptions rest (List.subset_cons_self first rest) h
    · exact hoptions (first :: rest) (List.Subset.refl _) h

theorem keyed_parts {fs : Written} (h : fs.Sound) : keyed fs.parts = fs.found := by
  induction fs with
  | nil => rfl
  | cons f fs ih =>
    obtain ⟨hf, hfs⟩ := List.forall_mem_cons.1 h
    obtain ⟨key, value⟩ := f
    have hrest : keyed (Written.parts fs) = Written.found fs := ih hfs
    cases value with
    | none => exact hrest
    | some v =>
      have hcut : Text.cut? '=' (key ++ "=" ++ v) = some (key, v) :=
        Text.cut?_append rfl hf.1.noEquals
      exact (List.filterMap_cons_some hcut).trans (congrArg ((key, v) :: ·) hrest)

theorem tail_parts_join {first : String} {ps : List String} (hfirst : ',' ∉ first.toList)
    (h : ∀ p ∈ ps, Text.Clean p) : (parts (join (first :: ps))).tail = ps := by
  unfold parts join
  rw [Text.pieces_intercalate rfl (List.cons_ne_nil _ _)
    (List.forall_mem_cons.2 ⟨hfirst, fun p hp => (h p hp).noComma⟩)]
  exact (List.map_congr_left fun p hp => (h p hp).trim).trans (List.map_id ps)

theorem get?_of_flag {t : OptionText} {key : String} (h : t.flag key = true) :
    ∃ v ∈ ["1", "on", "true"], t.get? key = some v := by
  unfold flag at h
  split at h
  · next v hv =>
    refine ⟨v, ?_, hv⟩
    simpa [or_assoc] using h
  · cases h

end OptionText

namespace Nic
open OptionText (Written keyed parts)

/-- The options that may go: the MTU, what says the model and the address, and flags that are
off. -/
def Excepted (e : String × String) : Prop :=
  e.1 ∈ "mtu" :: "model" :: "macaddr" :: models ∨ e.1 ∈ ["firewall", "link_down"] ∧ e.2 = "0"

/-- The new text has the options of the old one, and none besides but an MTU. -/
structure Keeps (mtu : UInt32) (old new : String) : Prop where
  kept : ∀ e ∈ keyed (parts old), ¬ Excepted e → e ∈ keyed (parts new).tail
  added : ∀ e ∈ keyed (parts new).tail,
    e ∈ keyed (parts old) ∨ e = ("mtu", Text.numeral mtu.toNat)

instance : DecidablePred Excepted := fun _ => inferInstanceAs (Decidable (_ ∨ _))

instance (mtu : UInt32) (old new : String) : Decidable (Keeps mtu old new) :=
  decidable_of_iff (_ ∧ _) ⟨fun h => ⟨h.1, h.2⟩, fun h => ⟨h.kept, h.added⟩⟩

/-- An option that an interface has, in the form in which it is written, and the last of its key. -/
def Modelled (s : String) (e : String × String) : Prop :=
  (OptionText.parse s).get? e.1 = some e.2 ∧
    (e.1 = "bridge" ∧ e.2.isEmpty = false ∨ e.1 ∈ ["firewall", "link_down"] ∧ e.2 = "1" ∨
      e.1 = "tag" ∧ (Text.readUInt16? e.2).map (fun n => Text.numeral n.toNat) = some e.2)

instance (s : String) : DecidablePred (Modelled s) := fun _ => inferInstanceAs (Decidable (_ ∧ _))

inductive Writes (n : Nic) : String → String → Prop where
  | bridge (h : n.bridge.isEmpty = false) : Writes n "bridge" n.bridge
  | firewall (h : n.firewall = true) : Writes n "firewall" "1"
  | linkDown (h : n.linkDown = true) : Writes n "link_down" "1"
  | mtu {m : UInt32} (h : n.mtu = some m) : Writes n "mtu" (Text.numeral m.toNat)
  | tag {m : UInt16} (h : n.tag = some m) : Writes n "tag" (Text.numeral m.toNat)

theorem mem_found {n : Nic} {e : String × String} : e ∈ n.written.found ↔ n.Writes e.1 e.2 := by
  obtain ⟨k, v⟩ := e
  rw [Written.mem_found]
  constructor
  · intro h
    simp only [written, OptionText.flagValue, List.mem_cons, List.not_mem_nil, or_false,
      Prod.mk.injEq, eq_comm (a := some v), Option.ite_none_left_eq_some,
      Option.ite_none_right_eq_some, Option.map_eq_some_iff, Bool.not_eq_true] at h
    rcases h with ⟨rfl, h, ⟨⟩⟩ | ⟨rfl, h, ⟨⟩⟩ | ⟨rfl, h, ⟨⟩⟩ | ⟨rfl, m, h, rfl⟩ | ⟨rfl, m, h, rfl⟩
    · exact .bridge h
    · exact .firewall h
    · exact .linkDown h
    · exact .mtu h
    · exact .tag h
  · intro h
    cases h with
    | bridge h => simp [written, h]
    | firewall h => simp [written, OptionText.flagValue, h]
    | linkDown h => simp [written, OptionText.flagValue, h]
    | mtu h =>
      rw [written, h]
      exact .tail _ (.tail _ (.tail _ (.head _)))
    | tag h =>
      rw [written, h]
      exact .tail _ (.tail _ (.tail _ (.tail _ (.head _))))

theorem Writes.flag {n : Nic} {k v : String} (h : n.Writes k v)
    (hk : k ∈ ["firewall", "link_down"]) : v = "1" := by
  cases h <;> simp_all

theorem Writes.tag? {n : Nic} {v : String} (h : n.Writes "tag" v) :
    ∃ m, n.tag = some m ∧ v = Text.numeral m.toNat := by
  generalize hk : "tag" = k at h
  cases h with
  | tag h => exact ⟨_, h, rfl⟩
  | _ => simp at hk

theorem noComma_of_modelAndMac? {s model : String} {mac : Option String}
    (h : modelAndMac? (OptionText.parse s) = some (model, mac)) : ',' ∉ model.toList := by
  have hmodels : ∀ model ∈ models, ',' ∉ model.toList := by decide
  unfold modelAndMac? at h
  split at h
  · next e hfind =>
    cases h
    exact hmodels _ (by simpa using List.find?_some hfind)
  · split at h
    · next hhead =>
      cases h
      exact hmodels _ (by simpa using (Option.filter_eq_some_iff.1 hhead).2)
    · obtain ⟨v, hv, heq⟩ := Option.map_eq_some_iff.1 h
      cases heq
      exact (OptionText.value_of_get?_parse hv).noComma

theorem keyed_render {n : Nic} (hmodel : ',' ∉ n.model.toList)
    (hmac : ∀ mac ∈ n.mac, ',' ∉ mac.toList) (hbridge : Text.Value n.bridge) :
    keyed (parts n.render).tail = n.written.found := by
  have hsound := written_sound hbridge
  have hclean := Written.parts_clean hsound
  cases hn : n.mac with
  | none =>
    rw [render_without_mac hn, OptionText.tail_parts_join hmodel hclean,
      OptionText.keyed_parts hsound]
  | some mac =>
    have hpair : ',' ∉ (n.model ++ "=" ++ mac).toList := by
      have := hmac mac hn
      simp_all
    have hparts : Written.parts ((n.model, some mac) :: n.written) =
      (n.model ++ "=" ++ mac) :: n.written.parts := rfl
    rw [render_with_mac hn, hparts, OptionText.tail_parts_join hpair hclean,
      OptionText.keyed_parts hsound]

theorem tag_of_number? {t : OptionText} {key : String} {n : UInt16}
    (h : number? Text.readUInt16? t key = .ok (some n)) :
    ∃ v, t.get? key = some v ∧ Text.readUInt16? v = some n := by
  unfold number? at h
  split at h
  · cases h
  · next raw hraw =>
    split at h
    · next hread =>
      cases h
      exact ⟨raw, hraw, hread⟩
    · cases h

theorem get?_bridge {s : String} {n : Nic} (h : ReadOf s n) (hbridge : n.bridge.isEmpty = false) :
    (OptionText.parse s).get? "bridge" = some n.bridge := by
  have hread := h.bridge
  cases hget : (OptionText.parse s).get? "bridge" with
  | none =>
    rw [hget] at hread
    rw [hread] at hbridge
    cases hbridge
  | some v =>
    rw [hget] at hread
    rw [hread]
    rfl

theorem mem_keyed_render {s : String} {n : Nic} (h : parse s = .ok n) (mtu : UInt32)
    {k v : String} : (k, v) ∈ keyed (parts { n with mtu := some mtu }.render).tail ↔
      k = "mtu" ∧ v = Text.numeral mtu.toNat ∨ k ≠ "mtu" ∧ n.Writes k v := by
  have hread := readOf_of_parse h
  obtain ⟨found, hmodel⟩ := hread.model
  have hbridge : Text.Value n.bridge := value_of_bridge hread
  have hkeyed : keyed (parts { n with mtu := some mtu }.render).tail = _ :=
    keyed_render (noComma_of_modelAndMac? hmodel)
      (fun mac hmac => (value_of_mac h mac hmac).noComma) hbridge
  rw [hkeyed, mem_found]
  constructor
  · intro hwrites
    cases hwrites with
    | bridge h => exact .inr ⟨by decide, .bridge h⟩
    | firewall h => exact .inr ⟨by decide, .firewall h⟩
    | linkDown h => exact .inr ⟨by decide, .linkDown h⟩
    | mtu h =>
      cases h
      exact .inl ⟨rfl, rfl⟩
    | tag h => exact .inr ⟨by decide, .tag h⟩
  · rintro (⟨rfl, rfl⟩ | ⟨hne, hwrites⟩)
    · exact .mtu rfl
    · cases hwrites with
      | bridge h => exact .bridge h
      | firewall h => exact .firewall h
      | linkDown h => exact .linkDown h
      | mtu => exact absurd rfl hne
      | tag h => exact .tag h

theorem get?_flag {s key : String} (hon : (OptionText.parse s).flag key = true)
    (hkey : key ∈ ["firewall", "link_down"])
    (hone : ∀ v, (key, v) ∈ keyed (parts s) → ¬ Excepted (key, v) → v = "1") :
    (OptionText.parse s).get? key = some "1" := by
  obtain ⟨v, hv, hget⟩ := OptionText.get?_of_flag hon
  have hsome : v.isEmpty = false ∧ v ≠ "0" := by
    simp only [List.mem_cons, List.not_mem_nil, or_false] at hv
    rcases hv with rfl | rfl | rfl <;> decide
  have hexcepted : ¬ Excepted (key, v) := by
    have hother : ∀ key ∈ ["firewall", "link_down"],
        key ∉ "mtu" :: "model" :: "macaddr" :: models := by decide
    rintro (h | h)
    · exact hother key hkey h
    · exact hsome.2 h.2
  rw [hget, hone v (OptionText.mem_keyed_of_get? hget hsome.1) hexcepted]

theorem get?_tag {s : String} {n : Nic} (h : ReadOf s n) {tag : UInt16} (htag : n.tag = some tag)
    (hnumeral : ∀ v, ("tag", v) ∈ keyed (parts s) → ¬ Excepted ("tag", v) →
      ∃ m : UInt16, v = Text.numeral m.toNat) :
    (OptionText.parse s).get? "tag" = some (Text.numeral tag.toNat) := by
  obtain ⟨v, hget, hread⟩ := tag_of_number? (htag ▸ h.tag)
  have hsome : v.isEmpty = false := by
    cases hempty : v.isEmpty with
    | false => rfl
    | true =>
      rw [String.isEmpty_iff.1 hempty] at hread
      cases hread
  have hexcepted : ¬ Excepted ("tag", v) := by simp [Excepted, models]
  obtain ⟨m, rfl⟩ := hnumeral v (OptionText.mem_keyed_of_get? hget hsome) hexcepted
  rw [Text.readUInt16?_numeral] at hread
  rw [hget, Option.some.inj hread]

theorem Modelled.writes {s : String} {n : Nic} (h : ReadOf s n) {k v : String}
    (hmodelled : Modelled s (k, v)) : n.Writes k v := by
  obtain ⟨hget, ⟨rfl, hsome⟩ | ⟨hkey, rfl⟩ | ⟨rfl, htag⟩⟩ := hmodelled
  · have hbridge := h.bridge
    simp only at hget
    rw [hget, Option.getD_some] at hbridge
    exact hbridge ▸ .bridge (hbridge ▸ hsome)
  · have hflag : (OptionText.parse s).get? k = OptionText.flagValue true := hget
    have hon := OptionText.flag_of_get? hflag
    simp only [List.mem_cons, List.not_mem_nil, or_false] at hkey
    rcases hkey with rfl | rfl
    · exact .firewall (h.firewall.trans hon)
    · exact .linkDown (h.linkDown.trans hon)
  · obtain ⟨m, -, rfl⟩ := Option.map_eq_some_iff.1 htag
    have hread := h.tag
    simp only [number?, hget, Text.readUInt16?_numeral, Except.ok.injEq] at hread
    exact .tag hread.symm

theorem Modelled.flag {s k v : String} (h : Modelled s (k, v))
    (hk : k ∈ ["firewall", "link_down"]) : v = "1" := by
  obtain ⟨-, ⟨rfl, -⟩ | ⟨-, hone⟩ | ⟨rfl, -⟩⟩ := h
  · exact absurd hk (by decide)
  · exact hone
  · exact absurd hk (by decide)

theorem Modelled.numeral {s v : String} (h : Modelled s ("tag", v)) :
    ∃ m : UInt16, v = Text.numeral m.toNat := by
  obtain ⟨-, ⟨hk, -⟩ | ⟨hk, -⟩ | ⟨-, hnumeral⟩⟩ := h
  · simp at hk
  · simp at hk
  · obtain ⟨m, -, hm⟩ := Option.map_eq_some_iff.1 hnumeral
    exact ⟨m, hm.symm⟩

theorem Writes.found {s : String} {n : Nic} (h : ReadOf s n) {k v : String} (hwrites : n.Writes k v)
    (hk : k ≠ "mtu") (hmodelled : ∀ e ∈ keyed (parts s), ¬ Excepted e → Modelled s e) :
    (k, v) ∈ keyed (parts s) := by
  have hflag {k : String} (hk : k ∈ ["firewall", "link_down"]) (v : String)
      (he : (k, v) ∈ keyed (parts s)) (hexcepted : ¬ Excepted (k, v)) : v = "1" :=
    (hmodelled _ he hexcepted).flag hk
  cases hwrites with
  | bridge hsome => exact OptionText.mem_keyed_of_get? (get?_bridge h hsome) hsome
  | firewall hon =>
    exact OptionText.mem_keyed_of_get?
      (get?_flag (h.firewall ▸ hon) (by decide) (hflag (by decide))) rfl
  | linkDown hon =>
    exact OptionText.mem_keyed_of_get?
      (get?_flag (h.linkDown ▸ hon) (by decide) (hflag (by decide))) rfl
  | mtu => exact absurd rfl hk
  | tag htag =>
    have hget := get?_tag h htag fun v he hexcepted => (hmodelled _ he hexcepted).numeral
    exact OptionText.mem_keyed_of_get? hget (Text.numeral_isEmpty _)

theorem Writes.modelled {s : String} {n : Nic} (h : ReadOf s n) {k v : String}
    (hwrites : n.Writes k v) (hk : k ≠ "mtu")
    (hall : ∀ e ∈ keyed (parts s), ¬ Excepted e → n.Writes e.1 e.2) : Modelled s (k, v) := by
  have hflag {k : String} (hk : k ∈ ["firewall", "link_down"]) (v : String)
      (he : (k, v) ∈ keyed (parts s)) (hexcepted : ¬ Excepted (k, v)) : v = "1" :=
    (hall _ he hexcepted).flag hk
  cases hwrites with
  | bridge hsome => exact ⟨get?_bridge h hsome, .inl ⟨rfl, hsome⟩⟩
  | firewall hon =>
    have hget := get?_flag (h.firewall ▸ hon) (by decide) (hflag (by decide))
    exact ⟨hget, .inr (.inl ⟨by decide, rfl⟩)⟩
  | linkDown hon =>
    have hget := get?_flag (h.linkDown ▸ hon) (by decide) (hflag (by decide))
    exact ⟨hget, .inr (.inl ⟨by decide, rfl⟩)⟩
  | mtu => exact absurd rfl hk
  | tag htag =>
    refine ⟨get?_tag h htag fun v he hexcepted => ?_, .inr (.inr ⟨rfl, by simp⟩)⟩
    obtain ⟨m, -, hm⟩ := (hall _ he hexcepted).tag?
    exact ⟨m, hm⟩

/-- The text keeps its options if and only if all are modelled, but for those that may go. -/
theorem keeps_iff {s : String} {n : Nic} (h : parse s = .ok n) (mtu : UInt32) :
    Keeps mtu s { n with mtu := some mtu }.render ↔
      ∀ e ∈ keyed (parts s), ¬ Excepted e → Modelled s e := by
  have hread := readOf_of_parse h
  have hmtu {e : String × String} (hexcepted : ¬ Excepted e) : e.1 ≠ "mtu" :=
    fun hkey => hexcepted (.inl (hkey ▸ List.mem_cons_self))
  constructor
  · rintro ⟨hkept, -⟩
    have hall : ∀ e ∈ keyed (parts s), ¬ Excepted e → n.Writes e.1 e.2 := by
      intro e he hexcepted
      rcases (mem_keyed_render h mtu).1 (hkept e he hexcepted) with ⟨hkey, -⟩ | ⟨-, hwrites⟩
      · exact absurd hkey (hmtu hexcepted)
      · exact hwrites
    exact fun e he hexcepted => (hall e he hexcepted).modelled hread (hmtu hexcepted) hall
  · intro hmodelled
    constructor
    · intro e he hexcepted
      exact (mem_keyed_render h mtu).2
        (.inr ⟨hmtu hexcepted, (hmodelled e he hexcepted).writes hread⟩)
    · rintro ⟨k, v⟩ he
      rcases (mem_keyed_render h mtu).1 he with ⟨rfl, rfl⟩ | ⟨hk, hwrites⟩
      · exact .inr rfl
      · exact .inl (hwrites.found hread hk hmodelled)

end Nic

def Call.sets? (key : String) : Call → Option String
  | .hypervisor _ (.configure _ _ c) => c.set.get? key
  | _ => none

namespace Networking
variable {t : Target} {o : Options} {m : Machine} {trace : Trace}
  {r : Except Fault (List GuestInterface)}

structure Inherits (t : Target) (m : Machine) (trace : Trace) (i : UInt8) (new : String) (nic : Nic)
    (mtu : UInt32) : Prop where
  present : m.nics.get? i = some nic
  without : nic.mtu = none
  ofBridge : ∃ network, ⟨.capacity (.network t.region t.zone), .ok network⟩ ∈ trace ∧
    (network.bridge? nic.bridge).bind (·.mtu) = some mtu
  text : new = { nic with mtu := some mtu }.render

theorem withBridgeMtu_ne {nic : Nic} {bridge : Option Bridge} (h : withBridgeMtu nic bridge ≠ nic) :
    ∃ mtu, nic.mtu = none ∧ bridge.bind (·.mtu) = some mtu ∧
      withBridgeMtu nic bridge = { nic with mtu := some mtu } := by
  unfold withBridgeMtu at h ⊢
  cases hmtu : nic.mtu with
  | some mtu => simp [hmtu] at h
  | none =>
    cases hbridge : bridge.bind (·.mtu) with
    | some mtu => exact ⟨mtu, rfl, rfl, rfl⟩
    | none =>
      simp only [hmtu, hbridge] at h
      rw [← hmtu] at h
      exact absurd rfl h

theorem inherits_of_sets (hrun : (configure t m).run.Yields trace r) {c : Call} {i : UInt8}
    {new : String} (hc : c ∈ trace.calls) (hsets : c.sets? (Setting.numbered "net" i) = some new) :
    ∃ nic mtu, Inherits t m trace i new nic mtu := by
  obtain ⟨⟨call, reply⟩, hevent, rfl⟩ := List.mem_map.1 hc
  unfold Call.sets? at hsets
  split at hsets
  · next hcall =>
    cases hcall
    obtain ⟨network, xs, hnetwork, hxs, rfl⟩ := (configure_ran t m _ _ hrun).of_configure hevent
    obtain ⟨x, hx, hsets⟩ := (get?_change hxs).1 hsets
    obtain ⟨⟨index, nic⟩, hnic, v4, v6, rfl⟩ := (mem_of_forall₂ hxs).2 x hx
    obtain ⟨rfl, hne, rfl⟩ := hsets.of_net
    obtain ⟨mtu, hwithout, hbridge, hafter⟩ := withBridgeMtu_ne hne
    exact ⟨nic, mtu, KeyMap.mem_entries.1 hnic, hwithout, ⟨network, hnetwork, hbridge⟩,
      congrArg Nic.render hafter⟩
  · cases hsets

/-- An interface is only written anew with the MTU of its bridge, and its text keeps all options if
and only if each of them is modelled, but for those that may go. -/
theorem keepsNicOptions_iff (hm : Machine.ofOptions o = .ok m)
    (hrun : (configure t m).run.Yields trace r) {c : Call} {i : UInt8} {new : String}
    (hc : c ∈ trace.calls) (hsets : c.sets? (Setting.numbered "net" i) = some new) :
    ∃ nic mtu, Inherits t m trace i new nic mtu ∧
      (∃ key old, o.get? key = some old ∧ Setting.read key old = .ok (.nic i nic)) ∧
      ∀ key old, o.get? key = some old → Setting.read key old = .ok (.nic i nic) →
        (Nic.Keeps mtu old new ↔ ∀ e ∈ OptionText.keyed (OptionText.parts old),
          ¬ Nic.Excepted e → Nic.Modelled old e) := by
  obtain ⟨nic, mtu, hinherits⟩ := inherits_of_sets hrun hc hsets
  have hat : m.at? (.nic i) = some (.nic i nic) := by
    simp [Machine.at?, hinherits.present]
  refine ⟨nic, mtu, hinherits, Machine.exists_option_of_at? hm hat, ?_⟩
  intro key old _ hread
  rw [hinherits.text]
  exact Nic.keeps_iff (Setting.parse_of_read_nic hread) mtu

def largeFrames : (c : Call) → c.Reply
  | .capacity (.network _ _) => .ok [{ name := "vmbr0", mtu := some 9000 }]
  | c => c.grant

def taggedNic : Nic where
  model := "virtio"
  mac := some "BC:24:11:00:00:01"
  bridge := "vmbr0"
  firewall := true
  tag := some 7

theorem keepsNicOptions_iff_tagged : ∃ trace mtu,
    Machine.ofOptions
      (.ofList [("net0", "virtio=BC:24:11:00:00:01,bridge=vmbr0,firewall=1,tag=7")]) =
        .ok { nics := .ofList [(0, taggedNic)] } ∧
    Inherits ⟨"r1", "z1", 1000⟩ { nics := .ofList [(0, taggedNic)] } trace 0
      "virtio=BC:24:11:00:00:01,bridge=vmbr0,firewall=1,mtu=9000,tag=7" taggedNic mtu ∧
    Nic.Keeps mtu "virtio=BC:24:11:00:00:01,bridge=vmbr0,firewall=1,tag=7"
      "virtio=BC:24:11:00:00:01,bridge=vmbr0,firewall=1,mtu=9000,tag=7" := by
  have hm : Machine.ofOptions
      (.ofList [("net0", "virtio=BC:24:11:00:00:01,bridge=vmbr0,firewall=1,tag=7")]) =
        .ok { nics := .ofList [(0, taggedNic)] } := by decide +kernel
  obtain ⟨trace, views, hrun, hgood, -⟩ := Job.yields_of_replies largeFrames
    (configure ⟨"r1", "z1", 1000⟩ { nics := .ofList [(0, taggedNic)] })
    (fun trace _ => trace.calls.any fun c => c.sets? (Setting.numbered "net" 0) ==
      some "virtio=BC:24:11:00:00:01,bridge=vmbr0,firewall=1,mtu=9000,tag=7") (by decide +kernel)
  obtain ⟨c, hc, hsets⟩ := List.any_eq_true.1 hgood
  obtain ⟨nic, mtu, hinherits, -, hiff⟩ := keepsNicOptions_iff hm hrun hc (beq_iff_eq.1 hsets)
  obtain rfl : taggedNic = nic := Option.some.inj hinherits.present
  exact ⟨trace, mtu, hm, hinherits, (hiff "net0" _ rfl (by decide +kernel)).2 (by decide +kernel)⟩

/-- The number of queues is lost. -/
theorem not_keepsNicOptions_queues : ∃ m trace views new,
    Machine.ofOptions (.ofList [("net0", "virtio=BC:24:11:00:00:01,bridge=vmbr0,queues=4")]) =
      .ok m ∧
    (configure ⟨"r1", "z1", 1000⟩ m).run.Yields trace (.ok views) ∧
    (∃ c ∈ trace.calls, c.sets? "net0" = some new) ∧
    ¬ Nic.Keeps 9000 "virtio=BC:24:11:00:00:01,bridge=vmbr0,queues=4" new := by
  let nic : Nic := { model := "virtio", mac := some "BC:24:11:00:00:01", bridge := "vmbr0" }
  obtain ⟨trace, views, hrun, hgood, -⟩ := Job.yields_of_replies largeFrames
    (configure ⟨"r1", "z1", 1000⟩ { nics := .ofList [(0, nic)] })
    (fun trace _ => trace.calls.any fun c => c.sets? "net0" ==
      some "virtio=BC:24:11:00:00:01,bridge=vmbr0,mtu=9000") (by decide +kernel)
  obtain ⟨c, hc, hsets⟩ := List.any_eq_true.1 hgood
  exact ⟨_, trace, views, _, by decide +kernel, hrun, ⟨c, hc, beq_iff_eq.1 hsets⟩,
    by decide +kernel⟩

end Networking
end NodeProvisioner

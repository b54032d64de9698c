import NodeProvisioner.Device.Address
import NodeProvisioner.Device.CpuModel
import NodeProvisioner.Device.Disk
import NodeProvisioner.Device.Nic
import NodeProvisioner.Device.Passthrough
import NodeProvisioner.Device.Smbios
import NodeProvisioner.Proofs.Device.OptionText

/-! Devices are read back from what is written for them, if their texts can stand in an option
text. -/
namespace NodeProvisioner
open OptionText (Written flagValue)

namespace Nic

def written (n : Nic) : Written :=
  [("bridge", if n.bridge.isEmpty then none else some n.bridge),
    ("firewall", flagValue n.firewall), ("link_down", flagValue n.linkDown),
    ("mtu", n.mtu.map fun m => Text.numeral m.toNat),
    ("tag", n.tag.map fun t => Text.numeral t.toNat)]

theorem render_with_mac {n : Nic} {mac : String} (h : n.mac = some mac) :
    n.render = OptionText.join (Written.parts ((n.model, some mac) :: n.written)) := by
  simp [render, h, written, Written.parts, OptionText.writtenFlag_eq, OptionText.written]

theorem render_without_mac {n : Nic} (h : n.mac = none) :
    n.render = OptionText.join (n.model :: n.written.parts) := by
  simp [render, h, written, Written.parts, OptionText.writtenFlag_eq, OptionText.written]

theorem written_sound {n : Nic} (hbridge : Text.Value n.bridge) : n.written.Sound := by
  have hbridge' : ∀ v ∈ if n.bridge.isEmpty then none else some n.bridge, Text.Value v := by
    split
    · nofun
    · rintro _ ⟨⟩
      exact hbridge
  exact .cons (by decide) hbridge' <| .cons (by decide) OptionText.value_of_mem_flagValue <|
    .cons (by decide) OptionText.value_of_mem_flagValue <|
    .cons (by decide) Text.value_of_mem_map <| .cons (by decide) Text.value_of_mem_map .nil

theorem number?_of_get? {α : Type} {read : String → Option α} {t : OptionText} {key : String}
    {o : Option α} {f : α → String} (hread : ∀ a, read (f a) = some a)
    (h : t.get? key = o.map f) : number? read t key = .ok o := by
  unfold number?
  rw [h]
  cases o with
  | none => rfl
  | some a => simp [hread]

theorem parse_eq {s : String} {n : Nic} {head : Option String} {fs : Written}
    (htext : OptionText.parse s = Written.text head fs) (hkeys : (fs.map (·.1)).Nodup)
    (hwritten : ∀ f ∈ n.written, f ∈ fs)
    (hmac : (n.mac <|> (Written.text head fs).get? "macaddr") = n.mac)
    (hmodel : modelAndMac? (Written.text head fs) = some (n.model, n.mac)) :
    parse s = .ok n := by
  have hget : ∀ f ∈ n.written, (Written.text head fs).get? f.1 = f.2 := fun f hf =>
    Written.get?_text hkeys (hwritten f hf) head
  simp only [written, List.forall_mem_cons] at hget
  obtain ⟨hbridge, hfirewall, hlink, hmtu, htag, -⟩ := hget
  have hname : ((Written.text head fs).get? "bridge").getD "" = n.bridge := by
    rw [hbridge]
    split
    · next h => exact (String.isEmpty_iff.1 h).symm
    · rfl
  unfold parse
  rw [htext]
  simp only [hmodel, hname, hmac, number?_of_get? Text.readUInt32?_numeral hmtu,
    number?_of_get? Text.readUInt16?_numeral htag, OptionText.flag_of_get? hfirewall,
    OptionText.flag_of_get? hlink]
  rfl

theorem find?_eq_some_of_sole {α : Type} {p : α → Bool} {l : List α} {a : α} (ha : a ∈ l)
    (hp : p a = true) (hsole : ∀ b ∈ l, p b = true → b = a) : l.find? p = some a := by
  cases h : l.find? p with
  | none => exact absurd hp (List.find?_eq_none.1 h a ha)
  | some b => rw [hsole b (List.mem_of_find?_eq_some h) (List.find?_some h)]

theorem written_not_model {n : Nic} : ∀ f ∈ n.written, f.1 ∉ models := by
  simp only [written, List.forall_mem_cons]
  exact ⟨by decide, by decide, by decide, by decide, by decide, nofun⟩

theorem written_nodup (n : Nic) : (n.written.map (·.1)).Nodup := by
  simp [written]

theorem macaddr_unwritten {n : Nic} : ∀ v, ("macaddr", some v) ∉ n.written := by
  simp [written]

theorem find?_model_written (n : Nic) (head : Option String) :
    (Written.text head n.written).options.entries.find? (fun e => models.contains e.1) = none := by
  apply List.find?_eq_none.2
  intro e he
  simpa using written_not_model _ (Written.mem_of_get?_text (KeyMap.mem_entries.1 he))

theorem modelAndMac?_without {n : Nic} (hmodel : n.model ∈ models) :
    modelAndMac? (Written.text (some n.model) n.written) = some (n.model, none) := by
  have hhead : (some n.model).filter models.contains = some n.model := by simpa using hmodel
  unfold modelAndMac?
  rw [find?_model_written]
  simp only [Written.text, hhead]

theorem modelAndMac?_unknown {n : Nic} (hmodel : n.model ∉ models) :
    modelAndMac? (Written.text (some n.model) n.written) = none := by
  have hhead : (some n.model).filter models.contains = none := by simpa using hmodel
  have hoption : (Written.text (some n.model) n.written).get? "model" = none :=
    Written.get?_text_of_unwritten (by simp [written]) _
  unfold modelAndMac?
  rw [find?_model_written, hoption]
  simp only [Written.text, hhead, Option.map_none]

theorem model_written_nodup {n : Nic} (hmodel : n.model ∈ models) (mac : String) :
    (((n.model, some mac) :: n.written).map (·.1)).Nodup := by
  refine List.nodup_cons.2 ⟨fun h => ?_, n.written_nodup⟩
  obtain ⟨f, hf, hkey⟩ := List.mem_map.1 h
  exact written_not_model f hf (hkey ▸ hmodel)

theorem modelAndMac?_with {n : Nic} (hmodel : n.model ∈ models) {mac : String}
    (hsome : mac.isEmpty = false) :
    modelAndMac? (Written.text none ((n.model, some mac) :: n.written)) =
      some (n.model, some mac) := by
  have hnodup := model_written_nodup hmodel mac
  have hfound : (Written.text none ((n.model, some mac) :: n.written)).options.entries.find?
      (fun e => models.contains e.1) = some (n.model, mac) := by
    apply find?_eq_some_of_sole
    · exact KeyMap.mem_entries.2 (Written.get?_text hnodup List.mem_cons_self none)
    · simpa using hmodel
    · intro e he hmodel'
      have hmem := Written.mem_of_get?_text (KeyMap.mem_entries.1 he)
      rcases List.mem_cons.1 hmem with heq | hwritten
      · cases e
        simpa using heq
      · exact absurd (by simpa using hmodel') (written_not_model _ hwritten)
  unfold modelAndMac?
  rw [hfound]
  simp [hsome]

/-- The address may hold equals signs, but not be empty. -/
theorem parse_render {n : Nic} (hmodel : n.model ∈ models)
    (hmac : ∀ mac ∈ n.mac, Text.Value mac ∧ mac.isEmpty = false)
    (hbridge : Text.Value n.bridge) : parse n.render = .ok n := by
  have htoken : ∀ model ∈ models, Text.Token model := by decide
  have hsound := written_sound hbridge
  cases hn : n.mac with
  | none =>
    rw [render_without_mac hn]
    apply parse_eq (Written.parse_join_head (htoken _ hmodel) hsound) n.written_nodup
    · exact fun _ => id
    · rw [hn, Written.get?_text_of_unwritten macaddr_unwritten]
      rfl
    · rw [hn, modelAndMac?_without hmodel]
  | some mac =>
    obtain ⟨hvalue, hsome⟩ := hmac mac hn
    have hsound' : Written.Sound ((n.model, some mac) :: n.written) := by
      refine .cons (htoken _ hmodel) ?_ hsound
      rintro _ ⟨⟩
      exact hvalue
    rw [render_with_mac hn]
    apply parse_eq (Written.parse_join hsound') (model_written_nodup hmodel mac)
    · exact fun _ => List.mem_cons_of_mem _
    · rw [hn]
      rfl
    · rw [hn, modelAndMac?_with hmodel hsome]

/-- Without an address the model stands for itself, which an unknown one cannot. -/
theorem parse_render_unknown {n : Nic} (hmodel : n.model ∉ models) (htoken : Text.Token n.model)
    (hmac : n.mac = none) (hbridge : Text.Value n.bridge) :
    parse n.render = .error (.nicWithoutModel n.render) := by
  have htext : OptionText.parse n.render = Written.text (some n.model) n.written := by
    rw [render_without_mac hmac, Written.parse_join_head htoken (written_sound hbridge)]
  unfold parse
  simp only [htext, modelAndMac?_unknown hmodel]

theorem get?_of_modelAndMac? {t : OptionText} {model : String} {mac : String}
    (h : modelAndMac? t = some (model, some mac)) : ∃ k, t.get? k = some mac := by
  unfold modelAndMac? at h
  split at h
  · next e hfind =>
    have hmem := KeyMap.mem_entries.1 (List.mem_of_find?_eq_some hfind)
    split at h
    · cases h
    · cases h
      exact ⟨_, hmem⟩
  · split at h
    · cases h
    · obtain ⟨_, -, heq⟩ := Option.map_eq_some_iff.1 h
      cases heq

theorem value_of_mac {s : String} {n : Nic} (h : parse s = .ok n) :
    ∀ mac ∈ n.mac, Text.Value mac := by
  unfold parse at h
  cases hm : modelAndMac? (OptionText.parse s) with
  | none => simp [hm] at h
  | some found =>
  cases hmtu : number? Text.readUInt32? (OptionText.parse s) "mtu" with
  | error e => simp [hm, hmtu, bind, Except.bind] at h
  | ok mtu =>
  cases htag : number? Text.readUInt16? (OptionText.parse s) "tag" with
  | error e => simp [hm, hmtu, htag, bind, Except.bind] at h
  | ok tag =>
    obtain ⟨model, found⟩ := found
    simp only [hm, hmtu, htag, bind, Except.bind, pure, Except.pure, Except.ok.injEq] at h
    subst h
    cases found with
    | none => exact fun mac hmac => OptionText.value_of_get?_parse hmac
    | some mac =>
      rintro _ ⟨⟩
      obtain ⟨k, hk⟩ := get?_of_modelAndMac? hm
      exact OptionText.value_of_get?_parse hk

/-- What an interface has was read of its text. -/
structure ReadOf (s : String) (n : Nic) : Prop where
  model : ∃ mac, modelAndMac? (OptionText.parse s) = some (n.model, mac)
  bridge : n.bridge = ((OptionText.parse s).get? "bridge").getD ""
  firewall : n.firewall = (OptionText.parse s).flag "firewall"
  linkDown : n.linkDown = (OptionText.parse s).flag "link_down"
  tag : number? Text.readUInt16? (OptionText.parse s) "tag" = .ok n.tag

theorem readOf_of_parse {s : String} {n : Nic} (h : parse s = .ok n) : ReadOf s n := by
  unfold parse at h
  cases hm : modelAndMac? (OptionText.parse s) with
  | none => simp [hm] at h
  | some found =>
  cases hmtu : number? Text.readUInt32? (OptionText.parse s) "mtu" with
  | error e => simp [hm, hmtu, bind, Except.bind] at h
  | ok mtu =>
  cases htag : number? Text.readUInt16? (OptionText.parse s) "tag" with
  | error e => simp [hm, hmtu, htag, bind, Except.bind] at h
  | ok tag =>
    simp only [hm, hmtu, htag, bind, Except.bind, pure, Except.pure, Except.ok.injEq] at h
    subst h
    exact ⟨⟨_, hm⟩, rfl, rfl, rfl, htag⟩

theorem value_of_bridge {s : String} {n : Nic} (h : ReadOf s n) : Text.Value n.bridge := by
  rw [h.bridge]
  cases hget : (OptionText.parse s).get? "bridge" with
  | none => exact (by decide)
  | some v => exact OptionText.value_of_get?_parse hget

end Nic

namespace Assignment

/-- A fixed address that can be written, and is not one of the words for the other assignments. -/
def Writable (a : Assignment) : Prop :=
  ∀ cidr, a = fixed cidr → Text.Value cidr ∧ cidr ∉ ["dhcp", "auto", "host"]

theorem parse_render {a : Assignment} (h : a.Writable) : parse a.render = a := by
  cases a with
  | dhcp => rfl
  | auto => rfl
  | host => rfl
  | fixed cidr =>
    have hwords := (h cidr rfl).2
    simp only [List.mem_cons, List.not_mem_nil, or_false, not_or] at hwords
    obtain ⟨hdhcp, hauto, hhost⟩ := hwords
    simp only [render, parse]

theorem value_of_writable {o : Option Assignment} (h : ∀ a ∈ o, a.Writable) :
    ∀ v ∈ o.map render, Text.Value v := by
  intro v hv
  obtain ⟨a, ha, rfl⟩ := Option.map_eq_some_iff.1 hv
  cases a with
  | fixed cidr => exact (h _ ha cidr rfl).1
  | _ => exact (by decide)

theorem map_parse_render {o : Option Assignment} (h : ∀ a ∈ o, a.Writable) :
    (o.map render).map parse = o := by
  cases o with
  | none => rfl
  | some a => exact congrArg some (parse_render (h a rfl))

end Assignment

namespace Addressing

def written (a : Addressing) : Written :=
  [("ip", a.ip.map Assignment.render), ("gw", a.gateway), ("ip6", a.ip6.map Assignment.render),
    ("gw6", a.gateway6)]

theorem parse_render {a : Addressing} (hip : ∀ i ∈ a.ip, i.Writable)
    (hgw : ∀ v ∈ a.gateway, Text.Value v) (hip6 : ∀ i ∈ a.ip6, i.Writable)
    (hgw6 : ∀ v ∈ a.gateway6, Text.Value v) : parse a.render = .ok a := by
  have hsound : a.written.Sound :=
    .cons (by decide) (Assignment.value_of_writable hip) <| .cons (by decide) hgw <|
      .cons (by decide) (Assignment.value_of_writable hip6) <| .cons (by decide) hgw6 .nil
  have hrender : a.render = OptionText.join a.written.parts := by
    simp [render, written, Written.parts]
  have hget : ∀ f ∈ a.written, (Written.text none a.written).get? f.1 = f.2 := fun f hf =>
    Written.get?_text (by simp [written]) hf none
  simp only [written, List.forall_mem_cons] at hget
  obtain ⟨hgetIp, hgetGw, hgetIp6, hgetGw6, -⟩ := hget
  unfold parse
  rw [hrender, Written.parse_join hsound]
  simp only [written, hgetIp, hgetGw, hgetIp6, hgetGw6, Assignment.map_parse_render hip,
    Assignment.map_parse_render hip6]
  rfl

end Addressing

namespace Passthrough

def written (p : Passthrough) : Written :=
  [("mapping", p.mapping), ("pcie", flagValue p.pcie), ("x-vga", flagValue p.primaryGpu)]

theorem written_sound {p : Passthrough} (h : ∀ v ∈ p.mapping, Text.Value v) : p.written.Sound :=
  .cons (by decide) h <| .cons (by decide) OptionText.value_of_mem_flagValue <|
    .cons (by decide) OptionText.value_of_mem_flagValue .nil

theorem parse_eq {s : String} {p : Passthrough}
    (htext : OptionText.parse s = Written.text p.host p.written)
    (haddress : (p.mapping.isNone && p.host.isNone) = false) : parse s = .ok p := by
  have hget : ∀ f ∈ p.written, (Written.text p.host p.written).get? f.1 = f.2 := fun f hf =>
    Written.get?_text (by simp [written]) hf p.host
  have hunwritten : ∀ v, ("host", some v) ∉ p.written := by simp [written]
  have hhost : (p.host <|> (Written.text p.host p.written).get? "host") = p.host := by
    rw [Written.get?_text_of_unwritten hunwritten]
    cases p.host <;> rfl
  have hhead : (Written.text p.host p.written).head = p.host := rfl
  have hmapping := hget _ (List.mem_cons_self)
  have hpcie := hget ("pcie", flagValue p.pcie) (by simp [written])
  have hgpu := hget ("x-vga", flagValue p.primaryGpu) (by simp [written])
  unfold parse
  rw [htext]
  simp only [hhead, hhost, hmapping, OptionText.flag_of_get? hpcie, OptionText.flag_of_get? hgpu,
    haddress]
  rfl

theorem parse_render_mapping {p : Passthrough} {mapping : String} (h : p.mapping = some mapping)
    (hvalue : Text.Value mapping) (hhost : p.host = none) : parse p.render = .ok p := by
  have hrender : p.render = OptionText.join p.written.parts := by
    simp [render, h, written, Written.parts, OptionText.writtenFlag_eq, OptionText.written]
  have hsound : p.written.Sound := written_sound fun v hv => by
    rw [h] at hv
    cases hv
    exact hvalue
  apply parse_eq
  · rw [hrender, Written.parse_join hsound, hhost]
  · simp [h]

theorem parse_render_host {p : Passthrough} {host : String} (h : p.host = some host)
    (htoken : Text.Token host) (hmapping : p.mapping = none) : parse p.render = .ok p := by
  have hrender : p.render = OptionText.join (host :: p.written.parts) := by
    simp [render, h, hmapping, written, Written.parts, OptionText.writtenFlag_eq,
      OptionText.written]
  have hsound : p.written.Sound := written_sound (by simp [hmapping])
  apply parse_eq
  · rw [hrender, Written.parse_join_head htoken hsound, h]
  · simp [h]

end Passthrough

namespace Smbios

def written (b : Smbios) : Written :=
  [("base64", flagValue b.base64), ("manufacturer", b.manufacturer), ("product", b.product),
    ("serial", b.serial), ("uuid", b.uuid)]

theorem parse_render {b : Smbios} (hmanufacturer : ∀ v ∈ b.manufacturer, Text.Value v)
    (hproduct : ∀ v ∈ b.product, Text.Value v) (hserial : ∀ v ∈ b.serial, Text.Value v)
    (huuid : ∀ v ∈ b.uuid, Text.Value v) : parse b.render = b := by
  have hsound : b.written.Sound :=
    .cons (by decide) OptionText.value_of_mem_flagValue <| .cons (by decide) hmanufacturer <|
      .cons (by decide) hproduct <| .cons (by decide) hserial <| .cons (by decide) huuid .nil
  have hrender : b.render = OptionText.join b.written.parts := by
    simp [render, written, Written.parts, OptionText.writtenFlag_eq]
  have hget : ∀ f ∈ b.written, (Written.text none b.written).get? f.1 = f.2 := fun f hf =>
    Written.get?_text (by simp [written]) hf none
  simp only [written, List.forall_mem_cons] at hget
  obtain ⟨hbase64, hgetManufacturer, hgetProduct, hgetSerial, hgetUuid, -⟩ := hget
  unfold parse
  rw [hrender, Written.parse_join hsound]
  simp only [written, OptionText.flag_of_get? hbase64, hgetManufacturer, hgetProduct, hgetSerial,
    hgetUuid]

end Smbios

namespace CpuModel

def written (c : CpuModel) : Written :=
  [("flags", if c.flags.isEmpty then none else some (String.intercalate ";" c.flags))]

theorem written_nodup (c : CpuModel) : (c.written.map (·.1)).Nodup := List.nodup_singleton _

theorem written_sound {c : CpuModel} (h : ∀ f ∈ c.flags, Text.Clean f) : c.written.Sound := by
  refine .cons (by decide) (fun v hv => ?_) .nil
  split at hv
  · cases hv
  · next hne =>
    cases hv
    exact (Text.clean_intercalate (by simpa using hne) h).toValue

theorem render_eq (c : CpuModel) : c.render = OptionText.join (c.model :: c.written.parts) := by
  unfold render written
  cases c.flags with
  | nil => rfl
  | cons f fs => simp [Written.parts, OptionText.written]

theorem flags_intercalate {fs : List String} (hne : fs ≠ [])
    (h : ∀ f ∈ fs, Text.Clean f ∧ ';' ∉ f.toList) :
    (Text.pieces ';' (String.intercalate ";" fs)).filter (!·.isEmpty) = fs := by
  rw [Text.pieces_intercalate rfl hne fun f hf => (h f hf).2]
  exact List.filter_eq_self.2 fun f hf => by simp [(h f hf).1.nonempty]

theorem parse_render {c : CpuModel} (hmodel : Text.Token c.model)
    (hflags : ∀ f ∈ c.flags, Text.Clean f ∧ ';' ∉ f.toList) : parse c.render = c := by
  have hsound := written_sound fun f hf => (hflags f hf).1
  have hget : (Written.text (some c.model) c.written).get? "flags" =
      if c.flags.isEmpty then none else some (String.intercalate ";" c.flags) :=
    Written.get?_text c.written_nodup List.mem_cons_self _
  unfold parse
  rw [render_eq, Written.parse_join_head hmodel hsound]
  dsimp only
  rw [hget]
  obtain ⟨model, flags⟩ := c
  cases flags with
  | nil => rfl
  | cons f fs =>
    have hread := flags_intercalate (List.cons_ne_nil f fs) hflags
    simp only [List.isEmpty_cons, Bool.false_eq_true, if_false, hread]
    rfl

end CpuModel

namespace Disk

/-- How an option of a disk is written: by its key alone if it has no value. -/
def writtenOption (e : String × String) : String :=
  if e.2.isEmpty then e.1 else e.1 ++ "=" ++ e.2

def written (d : Disk) : Written := [("media", d.media), ("size", d.size)]

structure Plain (e : String × String) : Prop where
  key : Text.Token e.1
  value : Text.Value e.2
  other : e.1 ∉ ["size", "media", "file"]

theorem clean_writtenOption {e : String × String} (h : Plain e) :
    Text.Clean (writtenOption e) ∧ OptionText.option (writtenOption e) = e := by
  unfold writtenOption
  split
  · next hempty =>
    rw [OptionText.option_key h.key.noEquals, ← String.isEmpty_iff.1 hempty]
    exact ⟨h.key.toClean, rfl⟩
  · rw [OptionText.option_pair h.key.noEquals]
    exact ⟨h.key.toClean.option h.value, rfl⟩

theorem render_eq (d : Disk) : d.render =
    OptionText.join (d.volume :: (d.options.entries.map writtenOption ++ d.written.parts)) := by
  have hparts : d.written.parts =
      OptionText.written "media" d.media ++ OptionText.written "size" d.size := by
    simp [written, Written.parts]
  rw [hparts, ← List.append_assoc]
  rfl

def read (d : Disk) : KeyMap String String :=
  d.written.found.foldl (fun m e => m.insert e.1 e.2) d.options

theorem parse_optionText {d : Disk} (hvolume : Text.Token d.volume) (hsound : d.written.Sound)
    (hoptions : ∀ e ∈ d.options.entries, Plain e) :
    OptionText.parse d.render = { head := some d.volume, options := d.read } := by
  have hclean : ∀ p ∈ d.options.entries.map writtenOption ++ d.written.parts, Text.Clean p := by
    intro p hp
    rcases List.mem_append.1 hp with hp | hp
    · obtain ⟨e, he, rfl⟩ := List.mem_map.1 hp
      exact (clean_writtenOption (hoptions e he)).1
    · exact Written.parts_clean hsound p hp
  have hentries : (d.options.entries.map writtenOption).map OptionText.option =
      d.options.entries := by
    rw [List.map_map]
    exact (List.map_congr_left fun e he => (clean_writtenOption (hoptions e he)).2).trans
      (List.map_id _)
  rw [render_eq, OptionText.parse_join_head hvolume hclean, List.map_append,
    Written.map_option_parts hsound, hentries]
  congr 1
  rw [KeyMap.ofList, List.foldl_append]
  exact congrArg (List.foldl _ · d.written.found) (KeyMap.ofList_entries d.options)

theorem options_get?_eq_none {d : Disk} (hoptions : ∀ e ∈ d.options.entries, Plain e) {k : String}
    (hk : k ∈ ["size", "media", "file"]) : d.options.get? k = none := by
  cases hget : d.options.get? k with
  | none => rfl
  | some v => exact absurd hk (hoptions (k, v) (KeyMap.mem_entries.2 hget)).other

theorem read_written {d : Disk} (hoptions : ∀ e ∈ d.options.entries, Plain e) :
    ∀ f ∈ d.written, d.read.get? f.1 = f.2 := by
  have hkeys : (d.written.map (·.1)).Nodup := by simp [written]
  have hnone : ∀ f ∈ d.written, d.options.get? f.1 = none := by
    simp only [written, List.forall_mem_cons]
    exact ⟨options_get?_eq_none hoptions (by decide), options_get?_eq_none hoptions (by decide),
      nofun⟩
  intro f hf
  have hget := Written.get?_foldl_found hkeys hf d.options
  rw [hnone f hf, Option.or_none] at hget
  exact hget

theorem read_erase {d : Disk} (hoptions : ∀ e ∈ d.options.entries, Plain e) :
    ((d.read.erase "size").erase "media").erase "file" = d.options := by
  apply KeyMap.ext_get?
  intro k
  simp only [KeyMap.get?_erase]
  by_cases hk : k ∈ ["size", "media", "file"]
  · have hnone := options_get?_eq_none hoptions hk
    simp only [List.mem_cons, List.not_mem_nil, or_false] at hk
    rcases hk with rfl | rfl | rfl <;> simp [hnone]
  · simp only [List.mem_cons, List.not_mem_nil, or_false, not_or] at hk
    obtain ⟨hsize, hmedia, hfile⟩ := hk
    rw [if_neg hfile, if_neg hmedia, if_neg hsize]
    apply KeyMap.get?_foldl_insert_of_not_mem
    intro hmem
    obtain ⟨⟨key, v⟩, hv, rfl⟩ := List.mem_map.1 hmem
    have := Written.mem_found.1 hv
    simp_all [written]

theorem parse_render {d : Disk} (hvolume : Text.Token d.volume)
    (hmedia : ∀ v ∈ d.media, Text.Value v) (hsize : ∀ v ∈ d.size, Text.Value v)
    (hoptions : ∀ e ∈ d.options.entries, Plain e) : parse d.render = .ok d := by
  have hsound : d.written.Sound := .cons (by decide) hmedia <| .cons (by decide) hsize .nil
  have hgetMedia := read_written hoptions ("media", d.media) (by simp [written])
  have hgetSize := read_written hoptions ("size", d.size) (by simp [written])
  have htext := parse_optionText hvolume hsound hoptions
  have hparse : parse d.render = .ok {
      volume := d.volume
      size := d.read.get? "size"
      media := d.read.get? "media"
      options := ((d.read.erase "size").erase "media").erase "file" } := by
    unfold parse
    rw [htext]
    rfl
  rw [hparse, hgetSize, hgetMedia, read_erase hoptions]

end Disk
end NodeProvisioner

import Aerosuite.Pulse.Backends
import Aerosuite.Pulse.Node

/-! The pool of a load balancer node, which `main` generates from what the metadata of the node
resolve to.  The daemon on the node resolves its network from the same metadata, so the pool names
the weight files that the daemon writes. -/

namespace Aerosuite.Pulse

open Program Node

/-- What the pool is generated from. -/
def Node.InstanceData.pool (data : Node.InstanceData) (hid : '\n' ∉ data.instance_id)
    (hvip : '\n' ∉ data.vip_outside) : Pulse.InstanceData where
  instance_id := ⟨data.instance_id, hid⟩
  vip_outside := ⟨data.vip_outside, hvip⟩
  slot_network := data.slot_network.toSlotNetwork
  slot_count := data.slot_count

variable {metadata : String → Option (List Char)}

/-- The subnet of an interface is one network. -/
theorem subnet_unique {mac : List Char} {net net' : DiscoveredNetwork}
    (h : Subnet metadata mac net) (h' : Subnet metadata mac net') : net = net' := by
  obtain ⟨⟨cidr, base_str, prefix_str, hcidr, hsplit, hbase, hlen⟩, offset_raw, hraw,
    hoffset⟩ := h
  obtain ⟨⟨cidr', base_str', prefix_str', hcidr', hsplit', hbase', hlen'⟩, offset_raw', hraw',
    hoffset'⟩ := h'
  obtain rfl := Option.some.inj (hcidr.symm.trans hcidr')
  obtain ⟨rfl, rfl⟩ := Prod.mk.inj (Option.some.inj (hsplit.symm.trans hsplit'))
  obtain rfl := Option.some.inj (hraw.symm.trans hraw')
  have hnet := Option.some.inj (hbase.symm.trans hbase')
  have hbits := Option.some.inj (hlen.symm.trans hlen')
  have hoff := Option.some.inj (hoffset.symm.trans hoffset')
  obtain ⟨⟨base, offset⟩, prefix_len⟩ := net
  obtain ⟨⟨base', offset'⟩, prefix_len'⟩ := net'
  simp only at hnet hbits hoff
  rw [hnet, hbits, hoff]

section Network

variable {data : Node.InstanceData} {net : DiscoveredNetwork}
  {t t' : List (Event NodeOp NodeOp.Reply)} (hattached : Attached metadata)
  (hrun : Exec resolveInstanceData.run t (.ok data))
  (hreads : ∀ ev ∈ t, Reads metadata ev.op ev.reply)
  (hnet : Exec slotNetworkFromImds.run t' (.ok net))
  (hreads' : ∀ ev ∈ t', Reads metadata ev.op ev.reply)

include hattached hrun hreads hnet hreads'

/-- Both programs find the same network, whatever requests fail on the way. -/
theorem slot_network_eq : data.slot_network = net := by
  obtain ⟨-, -, mac, hmac, hone, hsubnet⟩ := yields_resolveInstanceData t data hrun hreads
  obtain ⟨mac', hmac', hone', hsubnet'⟩ := yields_slotNetworkFromImds t' net hnet hreads'
  obtain rfl := mac_unique hattached hmac hmac' (hone.trans hone'.symm)
  exact subnet_unique hsubnet hsubnet'

/-- What the debug build writes to `backends.conf` of a node is the pool of the daemon on this node,
and so is what the release build writes when the slots fit. -/
theorem generate_matches_daemon {hid : '\n' ∉ data.instance_id} {hvip : '\n' ∉ data.vip_outside}
    {build : Build} {args : Args} {ts : OneLine} {line backends_conf : List Char}
    (hfits : build = .release → (data.pool hid hvip).Fits)
    (hgenerate : generate build args (data.pool hid hvip) ts = some (line, backends_conf)) :
    MatchesDaemon net.toSlotNetwork data.slot_count backends_conf := by
  obtain rfl := slot_network_eq hattached hrun hreads hnet hreads'
  have hfits : (data.pool hid hvip).Fits := by
    cases build with
    | debug => exact fits_of_generate hgenerate
    | release => exact hfits rfl
  rw [generate_of_fits build hfits, Option.some.injEq, Prod.mk.injEq] at hgenerate
  exact hgenerate.2 ▸ matchesDaemon_poolText hfits

end Network

theorem nodeData_oneLine : '\n' ∉ (nodeData .master).instance_id ∧
    '\n' ∉ (nodeData .master).vip_outside := by decide +kernel

example : ((nodeData .master).pool nodeData_oneLine.1 nodeData_oneLine.2).Fits := by
  unfold InstanceData.Fits
  decide +kernel

end Aerosuite.Pulse

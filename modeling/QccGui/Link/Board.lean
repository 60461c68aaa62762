import QccGui.Firmware.Board
import QccGui.Link.Refinement

/-!
# From the GUI to the board

The bytes that the controller puts on the link, brought by the line of the UART to the bootloader on
its board, whose drivers reach the flash chip through the registers of the SPI bus.

* `gui_to_board`: the board executes the operations that the controller performs, and its flash chip
  holds what they store.
-/

namespace QccGui

open Lib Firmware Uart SerialFlash Polling

variable {ops : List LinkOp}

/-- The board has read all that the line brought, none of it was lost and no idle timer tripped. -/
structure AllRead (u : Uart) (ftr : List (State × Poll UInt8 Env)) (u' : Uart) : Prop where
  lost : u'.lost = u.lost
  rx : u'.rx = []
  silent : ∀ n, u'.line n = []
  alive : NoTimeout ftr

/-- While the controller performs the operations `ops` with a connection and the line brings what
the QCC passes on, the board executes exactly these operations in order and ends at a command
boundary, once it has read all of it; its flash chip then holds what the operations leave in the
memory. Otherwise its driver waits for ever for a flash operation that was over too soon. -/
theorem gui_to_board {rc : RcSettings} {tr₀ tr : List Controller.Step} {c₀ c : Controller}
    (h₀ : Controller.machine.Run (Controller.init rc) tr₀ c₀)
    (hn : Machine.Along Controller.NoCancelBeforeShot tr₀) (hp : Controller.Performs c₀ ops tr c)
    (hc : Machine.Along Controller.Connected tr) (hf : ∀ op ∈ ops, op.Fits)
    {u : Uart} {h : Spi Chip} {d : Dev} (hd : HasRegions d) (hu : u.Drains) (hrx : u.rx = [])
    (hline : u.Carries (relayed (Controller.carried tr))) (hr : Ready h)
    (hi : h.slave.running = none) (hm : h.slave.mem = d.flash) (envs : List Env) :
    (∃ ftr k j s u' h', Refines spiBus envs (enter ⟨d, .request⟩) u h ftr k j s u' h' ∧
      (AllRead u ftr u' → (∃ ftr₁ ftr₂, ftr = ftr₁ ++ ftr₂ ∧ Executes d ops ftr₁ s.dev) ∧
        AtCommand s ∧ h'.slave.mem = s.dev.flash)) ∨
    Hangs (onBoard spiBus envs (enter ⟨d, .request⟩)) (u, h) ∧ ∃ i, h.slave.delays i = 0 := by
  refine (bus_refines spiBus_serves (s := enter ⟨d, .request⟩) hr hu hi hm envs).imp_left ?_
  rintro ⟨ftr, k, j, s, u', h', href⟩
  refine ⟨ftr, k, j, s, u', h', href, fun hall => ?_⟩
  have hsilent : ∀ n, u.line (k + n) = [] := fun n => by
    have := hall.silent n
    rwa [href.uart.line] at this
  have hitems : Poll.items (Machine.events ftr) = relayed (Controller.carried tr) := by
    have hex := href.uart.exact hall.lost
    rw [hall.rx, hrx, List.append_nil, List.nil_append] at hex
    rw [hex, hline.arriving hsilent]
  obtain ⟨ftr₁, ftr₂, hftr, hexec, -, hat⟩ :=
    gui_to_bootloader h₀ hn hp hc hf hd href.run hall.alive hitems
  exact ⟨⟨ftr₁, ftr₂, hftr, hexec⟩, hat, href.chip.mem⟩

/-- The bytes of a link check and of an upload of two chunks, one after the other. -/
def checkAndUploadPolls : List (Poll UInt8 Env) := bytewise (checkAndUploadOps.flatMap LinkOp.stream)

theorem checkAndUploadPolls_length : checkAndUploadPolls.length ≤ 1000000 := by
  have hpackets : (LinkOp.upload twoChunks false).packets.length = 2 := by
    simp [LinkOp.packets, chunkPackets, twoChunks_length]
  rw [checkAndUploadPolls, bytewise, List.length_map, checkAndUploadOps, List.flatMap_cons,
    List.flatMap_singleton, List.length_append, LinkOp.stream_length, LinkOp.stream_length, hpackets]
  decide

/-- The board executes both, and its chip then holds the image. -/
theorem gui_to_board_check_and_upload :
    let d : Dev := ⟨.erased w25q64, {}, []⟩
    let h := resetSpi (erasedChip fun _ => 3)
    let envs := checkAndUploadPolls.map Poll.env
    ∃ u ftr k j s u' h', Refines spiBus envs (enter ⟨d, .request⟩) u h ftr k j s u' h' ∧
      AllRead u ftr u' ∧ (∃ ftr₁ ftr₂, ftr = ftr₁ ++ ftr₂ ∧
        Executes d [.linkCheck, .upload twoChunks false] ftr₁ s.dev) ∧
      AtCommand s ∧ h'.slave.mem = s.dev.flash := by
  intro d h envs
  obtain ⟨-, hallow, -⟩ := takable_stream d checkAndUpload_fits
  have hready : Ready h := ready_resetSpi _
  obtain ⟨line, u', h', hcarries, hret, hrx, hlost, hsilent⟩ := board_hears (h := h) prompt_promptUart
    rfl hready rfl rfl (fun _ => Nat.succ_pos 2) hallow
  rw [items_bytewise, ← relayed_checkAndUpload] at hcarries
  rcases gui_to_board (d := d) gateOpened_run gateOpened_quiet performs_checkAndUpload
    connected_checkAndUpload checkAndUpload_fits (Nat.le_refl _) (Prompt.goes_on ⟨rfl, Nat.zero_le _⟩) rfl hcarries
    hready rfl rfl envs with ⟨ftr, k, j, s, u'', h'', href, hall⟩ | ⟨hhang, -⟩
  · obtain ⟨-, heq⟩ := hret.unique href.returns
    obtain ⟨rfl, rfl⟩ := Prod.mk.inj heq
    have hlen := href.environments.length_le
    rw [List.length_map, Machine.events, List.length_map, List.length_map] at hlen
    have halive : NoTimeout ftr :=
      @noTimeout_of_length ⟨d, .request⟩ _ _ trivial href.run (hlen.trans checkAndUploadPolls_length)
    have hread : AllRead { promptUart with line } ftr _ := ⟨hlost, hrx, hsilent, halive⟩
    exact ⟨_, ftr, k, j, s, _, _, href, hread, hall hread⟩
  · exact absurd hret hhang.not_returns

end QccGui

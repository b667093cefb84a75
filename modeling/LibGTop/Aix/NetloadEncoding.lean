import LibGTop.Aix.Netload
import LibGTop.Bsd.Netload
import LibGTop.Darwin.Netload

/-!
# One encoding on three systems

When the answers to the request for an interface are right on the BSDs, on Darwin and on AIX.
-/

namespace LibGTop.Aix

open Base Common

/-- On the BSDs the answer is right exactly when the interface of the name, if there is one, has an
address of IPv4 with every one of IPv6; on Darwin exactly when no interface has the name, and what
is written of one that has it is right only if no flag is set; on AIX exactly when the names of all
interfaces fit their buffer and some interface has the name, with the load and the flags of any
other one that has it. -/
theorem netload_right_iff (bsdIff darwinIff aixIff : IfFlag → BitVec 32) (interface : List UInt8)
    (bsd : List Bsd.Ifnet) (darwin : List (Darwin.IfInfo × Nat)) (aix : List Ifnet) :
    (RightAnswer Bsd.translated (Bsd.Ifnet.isSet bsdIff) Bsd.Ifnet.counters
        (Bsd.named interface bsd) (some (Bsd.glibtopGetNetloadP bsdIff interface bsd)) ↔
      ∀ ifnet ∈ (Bsd.named interface bsd).head?, ifnet.HasInet6 → ifnet.HasInet) ∧
    (RightAnswer Darwin.translated (Darwin.IfInfo.isSet darwinIff) Darwin.IfInfo.counters
        (Darwin.named interface darwin)
        (Darwin.glibtopGetNetloadP darwinIff interface (Darwin.messages darwin)).memory ↔
      Darwin.named interface darwin = []) ∧
    (∀ info : Darwin.IfInfo,
      (∀ flag ∈ Darwin.translated,
        ((Darwin.infoLoad darwinIff info).ifFlags.getD 0).getLsbD flag.number =
          info.isSet darwinIff flag) ↔
        ∀ flag ∈ Darwin.translated, info.isSet darwinIff flag = false) ∧
    (RightAnswer translated (Ifnet.isSet aixIff) Ifnet.counters (named interface aix)
        (glibtopGetNetloadP aixIff interface aix) ↔
      (∀ ifnet ∈ aix, ifnet.Fits) ∧ Alike aixIff (named interface aix)) ∧
    ∀ ifnet, Alike aixIff [ifnet] :=
  ⟨Bsd.rightAnswer_iff bsd, Darwin.rightAnswer_iff darwin, Darwin.flag_eq_iff,
    rightAnswer_iff aix, alike_singleton⟩

/-- On AIX the answer for an interface that is not there has flags. -/
theorem absent_interface_has_flags :
    ¬∀ (iff : IfFlag → BitVec 32) (interface : List UInt8) (ifnets : List Ifnet),
      RightAnswer translated (Ifnet.isSet iff) Ifnet.counters (named interface ifnets)
        (glibtopGetNetloadP iff interface ifnets) := by
  intro h
  have hright := h (fun _ ↦ 0) [] []
  obtain ⟨i, hi, -⟩ := ((rightAnswer_iff []).mp hright).2
  exact absurd hi List.not_mem_nil

end LibGTop.Aix

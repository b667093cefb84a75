import LibGTop.Base.DescriptorTable
import LibGTop.Linux.Netload

/-!
# Calls for the load of an interface

`glibtop_get_netload_s` (`sysdeps/linux/netload.c:454–558`) with the descriptors of its process, in
every run of calls. A socket with the number 0, which a process gets whose standard input is closed,
is not asked, and not closed.
-/

namespace LibGTop.Linux

open Base Common

variable {limit : Nat}

/-- `glibtop_get_netload_s`, with the descriptors of the process. Without one left `socket` returns
-1, on which no question is answered. -/
def NetEnv.glibtopGetNetloadS (env : NetEnv) (t : DescriptorTable limit) (c : NetloadCall) :
    Option NetloadBuf × DescriptorTable limit :=
  match t.allocate with
  | none => (env.finish c {}, t)
  | some (skfd, opened) =>
    if skfd ≠ 0 then
      (env.finish c (askInterface env.iff c.kernel c.interface {}), opened.release skfd)
    else (env.finish c {}, opened)

/-- Calls one after the other: what each returns, and the descriptors behind them. -/
def NetEnv.calls (env : NetEnv) : DescriptorTable limit → List NetloadCall →
    List (Option NetloadBuf) × DescriptorTable limit
  | t, [] => ([], t)
  | t, c :: rest =>
    let done := env.glibtopGetNetloadS t c
    let others := env.calls done.2 rest
    (done.1 :: others.1, others.2)

/-- The descriptors behind a call: 0 is kept when it was free. -/
def keeping (t : DescriptorTable limit) : List Nat :=
  if 0 ∈ t.used ∨ limit = 0 then t.used else t.used ++ [0]

/-- There is a socket to ask on, whose number is not 0. -/
def HasSocket (t : DescriptorTable limit) : Prop := 0 ∈ t.used ∧ t.used.length < limit

/-- What a call returns and does with the descriptors. -/
theorem glibtopGetNetloadS_spec (env : NetEnv) (t : DescriptorTable limit) (c : NetloadCall) :
    (env.glibtopGetNetloadS t c).2.used = keeping t ∧
      ∀ done, (env.glibtopGetNetloadS t c).1 = some done →
        AskedRight env (HasSocket t) c done ∧ Inet6Right c done := by
  rw [NetEnv.glibtopGetNetloadS, keeping]
  cases ha : t.allocate with
  | none =>
    have hl := t.allocate_eq_none_iff.mp ha
    have hk : 0 ∈ t.used ∨ limit = 0 := by
      obtain h0 | hpos := Nat.eq_zero_or_pos limit
      · exact .inr h0
      · exact .inl (DescriptorTable.mem_of_allocate_none ha 0 hpos)
    have hasked : HasSocket t ↔ False := iff_false_intro fun h ↦ absurd h.2 (by omega)
    refine ⟨by rw [if_pos hk], fun done hd ↦ ?_⟩
    rw [hasked]
    exact finish_right (unasked_right env c) noInet6_default hd
  | some opened =>
    obtain ⟨skfd, opened⟩ := opened
    obtain ⟨hn, hu⟩ := DescriptorTable.allocate_some ha
    have hpos : t.used.length < limit := by
      have hne : t.allocate ≠ none := by
        rw [ha]
        exact Option.some_ne_none _
      have hl := t.length_le
      rw [ne_eq, t.allocate_eq_none_iff] at hne
      omega
    by_cases h0 : skfd = 0
    · subst h0
      have hk : ¬(0 ∈ t.used ∨ limit = 0) := not_or.mpr ⟨hn, by omega⟩
      have hasked : HasSocket t ↔ False := iff_false_intro fun h ↦ hn h.1
      simp only [ne_eq, not_true_eq_false, if_false]
      refine ⟨by rw [if_neg hk, hu], fun done hd ↦ ?_⟩
      rw [hasked]
      exact finish_right (unasked_right env c) noInet6_default hd
    · have hzero := DescriptorTable.allocate_lowest ha 0 (Nat.pos_of_ne_zero h0)
      have hasked : HasSocket t ↔ True := iff_true_intro ⟨hzero, hpos⟩
      simp only [ne_eq, h0, not_false_eq_true, if_true]
      refine ⟨by rw [if_pos (.inl hzero), DescriptorTable.release_allocate ha], fun done hd ↦ ?_⟩
      rw [hasked]
      exact finish_right (askInterface_right env c)
        (noInet6_askInterface env.iff c.kernel c.interface) hd

/-- What was kept once is kept. -/
theorem keeping_of_used {t t' : DescriptorTable limit} (h : t'.used = keeping t) :
    keeping t' = keeping t := by
  rw [keeping, h]
  split
  · rfl
  · next hk =>
    exfalso
    obtain ⟨hn, hl⟩ := not_or.mp hk
    rw [keeping] at hn
    split at hn
    · next hk' => exact hk'.elim hn hl
    · exact hn (List.mem_append_right _ List.mem_cons_self)

/-- Behind a call the descriptor 0 is open, unless there is none at all. -/
theorem zero_mem_keeping {t : DescriptorTable limit} (h : (keeping t).length < limit) :
    0 ∈ keeping t := by
  rw [keeping] at h ⊢
  split
  · next hk => exact hk.resolve_right (by omega)
  · exact List.mem_append_right _ List.mem_cons_self

theorem hasSocket_iff (t : DescriptorTable limit) :
    HasSocket t ↔ (0 ∈ t.used ∨ 0 < 0) ∧ (keeping t).length < limit := by
  rw [HasSocket, or_iff_left (Nat.lt_irrefl 0), keeping]
  refine and_congr_right fun h0 ↦ ?_
  rw [if_pos (.inl h0)]

/-- What the calls of a process return, and what they do with its descriptors, in every run: the
first call keeps the descriptor 0 when that was free, none keeps another one. Whatever a call
returns has what the kernel says of the interface on a socket exactly where it is not this first
call and a descriptor is left, and what it says of IPv6 always. -/
theorem netload_calls (env : NetEnv) (t : DescriptorTable limit) (calls : List NetloadCall) :
    (env.calls t calls).1.length = calls.length ∧
      (calls ≠ [] → (env.calls t calls).2.used = keeping t) ∧
      ∀ i c, calls[i]? = some c → ∀ done, (env.calls t calls).1[i]? = some (some done) →
        AskedRight env ((0 ∈ t.used ∨ 0 < i) ∧ (keeping t).length < limit) c done ∧
          Inet6Right c done := by
  induction calls generalizing t with
  | nil => exact ⟨rfl, fun h ↦ absurd rfl h, fun i c h ↦ absurd h (by simp)⟩
  | cons c calls ih =>
    obtain ⟨hu, hr⟩ := glibtopGetNetloadS_spec env t c
    obtain ⟨hl, hused, hall⟩ := ih (env.glibtopGetNetloadS t c).2
    refine ⟨congrArg (· + 1) hl, fun _ ↦ ?_, fun i c' hc done hd ↦ ?_⟩
    · cases calls with
      | nil => exact hu
      | cons c' calls => exact (hused (List.cons_ne_nil c' calls)).trans (keeping_of_used hu)
    · cases i with
      | zero =>
        obtain rfl := Option.some.inj hc
        rw [← hasSocket_iff]
        exact hr done (Option.some.inj hd)
      | succ i =>
        have hasked : ((0 ∈ t.used ∨ 0 < i + 1) ∧ (keeping t).length < limit) ↔
            (0 ∈ (env.glibtopGetNetloadS t c).2.used ∨ 0 < i) ∧
              (keeping (env.glibtopGetNetloadS t c).2).length < limit := by
          rw [keeping_of_used hu, hu]
          refine and_congr_left fun hl ↦ ?_
          exact iff_of_true (.inr (Nat.succ_pos i)) (.inl (zero_mem_keeping hl))
        rw [hasked]
        exact hall i c' hc done hd

/-- There is no counter. -/
def NoCounters (buf : NetloadBuf) : Prop :=
  ∀ field ∈ counterFields, hasFlag buf.stats.flags field.number = false ∧
    buf.stats.counter field = 0

theorem noCounters_default : NoCounters {} := fun _ _ ↦ ⟨BitVec.getLsbD_zero, rfl⟩

theorem noCounters_askInterface (iff : IfFlag → BitVec 64) (kernel : NetKernel)
    (interface : List UInt8) : NoCounters (askInterface iff kernel interface {}) := by
  intro field hf
  have hcounter : (askInterface iff kernel interface {}).stats.counter = fun _ ↦ 0 :=
    proj_askInterface iff kernel interface (·.stats.counter) fun _ _ _ _ _ _ _ ↦ rfl
  refine ⟨?_, by rw [hcounter]⟩
  rw [hasFlag_askInterface]
  revert field
  simp [counterFields, NetKernel.answers]

theorem NoCounters.getIpv6 {buf : NetloadBuf} (h : NoCounters buf) (kernel : NetKernel)
    (interface : List UInt8) : NoCounters (getIpv6 kernel interface buf) := by
  intro field hf
  have hnot : field ∉ inet6Fields := by
    revert field
    decide
  have hcounter : (Linux.getIpv6 kernel interface buf).stats.counter = buf.stats.counter := by
    rw [Linux.getIpv6]
    cases firstInet6 kernel interface <;> rfl
  rw [hasFlag_getIpv6, decide_eq_false hnot, Bool.false_and, Bool.or_false, hcounter]
  exact h field hf

/-- The counters of old kernels are never there. Before Linux 2.1.14 a call returns a load with no
counter and with no flag of one, for every interface and whatever the rules of the accounting have
counted. -/
theorem no_counters_before_2_1_14 (env : NetEnv) (hv : env.osVersionCode < linuxVersionCode 2 1 14)
    (t : DescriptorTable limit) (c : NetloadCall) (hi : ∀ b ∈ c.interface, isTokenByte b)
    (hf : ∀ text ∈ c.files.ipAcct, ∃ table : AccountTable, text = table.text) :
    ∃ buf, (env.glibtopGetNetloadS t c).1 = some buf ∧ NoCounters buf := by
  have hstats : ∀ buf, linux20Stats c.files.stack c.files.ipAcct c.interface buf = buf := by
    intro buf
    cases hfile : c.files.ipAcct with
    | none => rfl
    | some text =>
      obtain ⟨table, rfl⟩ := hf text hfile
      exact linux20Stats_table table hi c.files.stack buf
  have hfinish : ∀ buf, NoCounters buf → ∃ done, env.finish c buf = some done ∧
      NoCounters done := by
    intro buf hn
    refine ⟨_, ?_, hn.getIpv6 c.kernel c.interface⟩
    rw [NetEnv.finish, addCounters, if_pos hv, hstats]
    rfl
  rw [NetEnv.glibtopGetNetloadS]
  cases t.allocate with
  | none => exact hfinish {} noCounters_default
  | some opened =>
    simp only
    split
    · exact hfinish _ (noCounters_askInterface env.iff c.kernel c.interface)
    · exact hfinish {} noCounters_default

theorem isToken_network : IsToken (asciiBytes ['0', '/', '0', '-', '>', '0', '/', '0']) := by decide

theorem isToken_eth0 : IsToken (asciiBytes ['e', 't', 'h', '0']) := by decide

theorem gap_blank : ([32] : List UInt8) ≠ [] ∧ ∀ b ∈ ([32] : List UInt8), isBlankByte b := by decide

theorem lead_nil : ∀ b ∈ ([] : List UInt8), isBlankByte b := List.forall_mem_nil _

theorem counted_text :
    ∀ b ∈ asciiBytes [' ', '0', ' ', '1', '0', '0', '0', ' ', '0', ' ', '0', ' ', '5', ' ', '9'],
      b ≠ 0 ∧ b ≠ 10 := by
  decide

/-- A rule that has counted five packets coming in on `eth0`. -/
def eth0Rule : AccountRule :=
  ⟨⟨[], lead_nil⟩, ⟨_, isToken_network⟩, ⟨[32], gap_blank⟩, ⟨_, isToken_eth0⟩, ⟨_, counted_text⟩⟩

theorem eth0Rule_fits : eth0Rule.row.length + 1 < 8191 := by decide

theorem header_fits :
    (10 : UInt8) ∉ asciiBytes ['I', 'P'] ∧ (asciiBytes ['I', 'P']).length + 1 < 8191 := by
  decide

/-- The table with this rule. -/
def eth0Table : AccountTable := ⟨⟨_, header_fits⟩, [⟨eth0Rule, eth0Rule_fits⟩]⟩

/-- A kernel that says nothing of any interface. -/
def silentKernel : NetKernel :=
  ⟨fun _ ↦ none, fun _ ↦ false, fun _ ↦ none, fun _ ↦ none, fun _ ↦ none, fun _ ↦ none, none⟩

theorem nodup_standard : [0, 1, 2].Nodup := by decide

theorem standard_lt : ∀ fd ∈ [0, 1, 2], fd < 256 := by decide

/-- The packets that the rule has counted are not in the load of `eth0`. -/
theorem no_counters_before_2_1_14_eth0 :
    ∃ buf, (NetEnv.glibtopGetNetloadS ⟨fun _ ↦ 0, linuxVersionCode 2 0 36, false⟩
      (⟨[0, 1, 2], nodup_standard, standard_lt⟩ : DescriptorTable 256)
      ⟨asciiBytes ['e', 't', 'h', '0'], silentKernel,
        ⟨[], some eth0Table.text, none, fun _ ↦ none⟩⟩).1 = some buf ∧ NoCounters buf :=
  no_counters_before_2_1_14 ⟨fun _ ↦ 0, linuxVersionCode 2 0 36, false⟩ (by decide)
    ⟨[0, 1, 2], nodup_standard, standard_lt⟩
    ⟨asciiBytes ['e', 't', 'h', '0'], silentKernel, ⟨[], some eth0Table.text, none, fun _ ↦ none⟩⟩
    isToken_eth0.2 fun _ ht ↦ ⟨eth0Table, (Option.some.inj ht).symm⟩

end LibGTop.Linux

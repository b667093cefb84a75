import LibGTop.Linux.OpenFiles

/-!
# The sockets that are found

When `glibtop_get_proc_open_files_s` gives each socket what its line says.
-/

namespace LibGTop.Linux

open Base

section

variable {row ε : Type} {parser : List UInt8 → Option (Int × ε)} {rowText : row → List UInt8}
  {key : row → Option Int} {shown : row → ε}

/-- A number has the entry of the last line that is read with it. -/
theorem getAll_tableFile (hline : ∀ r, IsLine (rowText r))
    (hparser : ∀ r, parser (rowText r ++ [10]) = (key r).map fun k ↦ (k, shown r))
    (table : Option (Table row)) (sock : Int) :
    getAll parser (tableFile rowText table) sock =
      (lastRead key (tableRows table) sock).map shown := by
  cases table with
  | none => rfl
  | some table =>
    have hlines : ∀ line ∈ table.header.1 :: table.rows.map rowText, 10 ∉ line := by
      rw [List.forall_mem_cons]
      refine ⟨fun h ↦ (table.header.2 10 h).2 rfl, fun line hmem h ↦ ?_⟩
      obtain ⟨r, -, rfl⟩ := List.mem_map.mp hmem
      exact (hline r 10 h).2 rfl
    have hstring : ∀ r, cString (rowText r ++ [10]) = rowText r ++ [10] := by
      refine fun r ↦ cString_eq_self fun h ↦ ?_
      obtain h | h := List.mem_append.mp h
      · exact (hline r 0 h).1 rfl
      · exact absurd h (by decide)
    have hentries : ((lines (text (table.header.1 :: table.rows.map rowText))).drop 1).filterMap
        (fun line ↦ parser (cString line)) =
          table.rows.filterMap fun r ↦ (key r).map fun k ↦ (k, shown r) := by
      rw [lines_text hlines, List.map_cons, List.drop_succ_cons, List.drop_zero, List.map_map,
        List.filterMap_map]
      refine List.filterMap_congr fun r _ ↦ ?_
      rw [Function.comp_apply, Function.comp_apply, hstring, hparser]
    have hfind : (table.rows.filterMap fun r ↦ (key r).map fun k ↦ (k, shown r)).reverse.find?
        (fun entry ↦ entry.1 = sock) =
          (lastRead key table.rows sock).map fun r ↦ (sock, shown r) := by
      have hkey : ∀ r, (((key r).map fun k ↦ (k, shown r)).any fun entry ↦ entry.1 = sock) =
          decide (key r = some sock) := by
        intro r
        cases key r with
        | none => rfl
        | some k => simp
      rw [← List.filterMap_reverse, List.find?_filterMap, lastRead]
      simp only [hkey]
      cases hlast : table.rows.reverse.find? fun r ↦ decide (key r = some sock) with
      | none => rfl
      | some r =>
        have hr := List.find?_some (p := fun r ↦ decide (key r = some sock)) hlast
        rw [Option.bind_some, of_decide_eq_true hr]
        rfl
    rw [getAll, tableFile, Option.map_some, Option.getD_some, hentries, foldl_update, hfind,
      Option.map_map]
    rfl

end

section

variable {entry : OpenFilesEntry} {address : Type} {host : address → HostText}

theorem type_resolve_none (h : entry.type = 0) (ise : Option InetSocketEntry)
    (lse : Option (List UInt8)) :
    (resolve entry none ise lse).type ≠ FileType.inet6socket.number := by
  cases ise with
  | some ise => exact (by decide : FileType.inetsocket.number ≠ FileType.inet6socket.number)
  | none =>
    cases lse with
    | some lse => exact (by decide : FileType.localsocket.number ≠ FileType.inet6socket.number)
    | none => exact h ▸ (by decide : 0 ≠ FileType.inet6socket.number)

theorem type_resolve_none_none (h : entry.type = 0) (lse : Option (List UInt8)) :
    (resolve entry none none lse).type ≠ FileType.inetsocket.number := by
  cases lse with
  | some lse => exact (by decide : FileType.localsocket.number ≠ FileType.inetsocket.number)
  | none => exact h ▸ (by decide : 0 ≠ FileType.inetsocket.number)

/-- Where a line is found in a table, the entry is that of a line of an inode exactly when the one
that is found says the same as it; where none is found, its type is another. -/
theorem found_iff {row : Type} {rows : List row} {own : row → Prop} {number : BitVec 16}
    {found : Option row} {said : row → OpenFilesInfo} {alike : row → row → Prop}
    (hnone : found = none → entry.type ≠ number)
    (hsome : ∀ r, found = some r → entry.type = number ∧ ∀ s, entry.info = said s ↔ alike r s) :
    (∃ s ∈ rows, own s ∧ entry.type = number ∧ entry.info = said s) ↔
      ∃ r ∈ found, ∃ s ∈ rows, own s ∧ alike r s := by
  cases found with
  | none =>
    refine iff_of_false ?_ ?_
    · rintro ⟨s, -, -, htype, -⟩
      exact hnone rfl htype
    · rintro ⟨r, hr, -⟩
      exact absurd hr (Option.not_mem_none r)
  | some r =>
    obtain ⟨htype, hinfo⟩ := hsome r rfl
    constructor
    · rintro ⟨s, hs, hown, -, hsaid⟩
      exact ⟨r, rfl, s, hs, hown, (hinfo s).mp hsaid⟩
    · rintro ⟨found, hfound, s, hs, hown, halike⟩
      obtain rfl := Option.mem_some_iff.mp hfound
      exact ⟨s, hs, hown, htype, (hinfo s).mpr halike⟩

/-- The address and the port of a line are those of another where both are shown alike. -/
theorem sock_shown_iff (row own : InetRow address) :
    OpenFilesInfo.sock ((row.shown host).host.take 46) (row.shown host).port =
        .sock (host own.remAddress).1 own.remPort.toNat ↔
      row.shown host = own.shown host := by
  have hfits : (row.shown host).host.take 46 = (row.shown host).host :=
    List.take_of_length_le (Nat.le_of_lt (host row.remAddress).2.1)
  rw [hfits, OpenFilesInfo.sock.injEq]
  exact (InetSocketEntry.mk.injEq ..).symm ▸ Iff.rfl

theorem localsock_keptName_iff (row own : UnixRow) :
    OpenFilesInfo.localsock (row.keptName.take 215) = .localsock own.nameText ↔
      row.keptName = own.nameText := by
  -- 45 bytes fit the 215 of the entry.
  have hlength := (infix_strip gAsciiIsspace (row.nameText.take 45)).length_le
  have hcut := List.length_take_le 45 row.nameText
  have hfits : row.keptName.take 215 = row.keptName :=
    List.take_of_length_le (hlength.trans (hcut.trans (by decide)))
  rw [hfits, OpenFilesInfo.localsock.injEq]

end

section

variable (inetNtop : InetNtop) (tables : SocketTables) (inode : BitVec 64) {entry : OpenFilesEntry}

/-- What the lookups make of an entry is right exactly when the lines resolve the inode. -/
theorem socketRight_resolve (h : entry.type = 0) (hinfo : entry.info = .zeros) :
    SocketRight inetNtop tables inode (resolve entry
        ((lastRead InetRow.key (tableRows tables.tcp6) (inodeKey inode)).map
          (InetRow.shown inetNtop.inet6))
        ((lastRead InetRow.key (tableRows tables.tcp) (inodeKey inode)).map
          (InetRow.shown inetNtop.inet))
        ((lastRead (fun row ↦ some (localKey row.inode)) (tableRows tables.unix)
          (inodeKey inode)).map UnixRow.keptName)) ↔
      Resolves inetNtop tables inode := by
  rw [SocketRight, Resolves]
  generalize lastRead InetRow.key (tableRows tables.tcp6) (inodeKey inode) = row6
  generalize lastRead InetRow.key (tableRows tables.tcp) (inodeKey inode) = row4
  generalize lastRead (fun row ↦ some (localKey row.inode)) (tableRows tables.unix)
    (inodeKey inode) = rowU
  by_cases h6 : ∃ row ∈ tableRows tables.tcp6, row.inode = inode
  · rw [if_pos h6, if_pos h6]
    refine found_iff ?_ ?_
    · rintro rfl
      exact type_resolve_none h _ _
    · rintro row rfl
      exact ⟨rfl, sock_shown_iff row⟩
  rw [if_neg h6, if_neg h6]
  cases row6 with
  | some row =>
    refine iff_of_false (fun hright ↦ ?_) fun hright ↦ absurd hright.1 (Option.some_ne_none row)
    split_ifs at hright
    · obtain ⟨-, -, -, htype, -⟩ := hright
      exact absurd htype (by decide : FileType.inet6socket.number ≠ FileType.inetsocket.number)
    · obtain ⟨-, -, -, htype, -⟩ := hright
      exact absurd htype (by decide : FileType.inet6socket.number ≠ FileType.localsocket.number)
    · exact absurd hright.1 (by decide : FileType.inet6socket.number ≠ 0)
  | none =>
  rw [and_iff_right rfl]
  by_cases h4 : ∃ row ∈ tableRows tables.tcp, row.inode = inode
  · rw [if_pos h4, if_pos h4]
    refine found_iff ?_ ?_
    · rintro rfl
      exact type_resolve_none_none h _
    · rintro row rfl
      exact ⟨rfl, sock_shown_iff row⟩
  rw [if_neg h4, if_neg h4]
  cases row4 with
  | some row =>
    refine iff_of_false (fun hright ↦ ?_) fun hright ↦ absurd hright.1 (Option.some_ne_none row)
    split_ifs at hright
    · obtain ⟨-, -, -, htype, -⟩ := hright
      exact absurd htype (by decide : FileType.inetsocket.number ≠ FileType.localsocket.number)
    · exact absurd hright.1 (by decide : FileType.inetsocket.number ≠ 0)
  | none =>
  rw [and_iff_right rfl]
  by_cases hU : ∃ row ∈ tableRows tables.unix, row.inode = inode
  · rw [if_pos hU, if_pos hU]
    refine found_iff ?_ ?_
    · rintro rfl
      exact h ▸ (by decide : 0 ≠ FileType.localsocket.number)
    · rintro row rfl
      exact ⟨rfl, localsock_keptName_iff row⟩
  rw [if_neg hU, if_neg hU]
  cases rowU with
  | some row =>
    refine iff_of_false (fun hright ↦ ?_) (Option.some_ne_none row)
    exact absurd hright.1 (by decide : FileType.localsocket.number ≠ 0)
  | none => exact iff_of_true ⟨h, hinfo⟩ rfl

end

/-- The tables are looked up as their lines are read. -/
theorem socketRight_getAll (inetNtop : InetNtop) (tables : SocketTables) (inode : BitVec 64)
    {entry : OpenFilesEntry} (h : entry.type = 0) (hinfo : entry.info = .zeros) :
    SocketRight inetNtop tables inode (resolve entry
        (getAll (inet6SocketParser inetNtop) tables.files.tcp6 (inodeKey inode))
        (getAll (inetSocketParser inetNtop) tables.files.tcp (inodeKey inode))
        (getAll localSocketParser tables.files.unix (inodeKey inode))) ↔
      Resolves inetNtop tables inode := by
  have h6 : ∀ sock, getAll (inet6SocketParser inetNtop) (tableFile tcp6Text tables.tcp6) sock =
      (lastRead InetRow.key (tableRows tables.tcp6) sock).map (InetRow.shown inetNtop.inet6) := by
    refine getAll_tableFile isLine_tcp6Text (fun row ↦ ?_) tables.tcp6
    rw [inet6SocketParser_tcp6Text, InetRow.key]
    split <;> rfl
  have h4 : ∀ sock, getAll (inetSocketParser inetNtop) (tableFile tcpText tables.tcp) sock =
      (lastRead InetRow.key (tableRows tables.tcp) sock).map (InetRow.shown inetNtop.inet) := by
    refine getAll_tableFile isLine_tcpText (fun row ↦ ?_) tables.tcp
    rw [inetSocketParser_tcpText, InetRow.key]
    split <;> rfl
  have hU : ∀ sock, getAll localSocketParser (tableFile unixText tables.unix) sock =
      (lastRead (fun row ↦ some (localKey row.inode)) (tableRows tables.unix) sock).map
        UnixRow.keptName :=
    getAll_tableFile isLine_unixText localSocketParser_unixText tables.unix
  rw [SocketTables.files, h6, h4, hU]
  exact socketRight_resolve inetNtop tables inode h hinfo

theorem length_decimal_le {value count : Nat} (hc : 0 < count) (h : value < 10 ^ count) :
    (decimal value).length ≤ count := by
  rw [decimal, asciiBytes, List.length_map]
  exact (Nat.length_toDigits_le_iff (by decide) hc).mpr h

/-- What `atoi` reads of a descriptor's name. -/
theorem toInt32_strtol_decimal {number : Nat} (h : number < 2 ^ 31) :
    toInt32 (strtol 10 (decimal number)).1 = number := by
  have hread := strtol_signedDecimal (.inr rfl) spaces_nil (number : Int) stops_nil
  rw [List.nil_append, List.append_nil, signedDecimal_natCast] at hread
  rw [hread, toInt32, clampLong, BitVec.toInt_ofInt, Int.bmod_def]
  split <;> omega

theorem fd_resolve (entry : OpenFilesEntry) (i6se ise : Option InetSocketEntry)
    (lse : Option (List UInt8)) : (resolve entry i6se ise lse).fd = entry.fd := by
  cases i6se with
  | some i6se => rfl
  | none =>
    cases ise with
    | some ise => rfl
    | none => cases lse <;> rfl

theorem fd_openFilesEntry (inetNtop : InetNtop) (files : SocketFiles) (tgt : List UInt8)
    {number : Nat} (h : number < 2 ^ 31) :
    (openFilesEntry inetNtop files (decimal number) tgt).fd = number := by
  rw [openFilesEntry]
  split_ifs
  · rw [fd_resolve]
    exact toInt32_strtol_decimal h
  · exact toInt32_strtol_decimal h
  · exact toInt32_strtol_decimal h

section

variable (inetNtop : InetNtop) (tables : SocketTables) (dName : List UInt8)

/-- The string that is read of a link. -/
def Link.tgt (link : Link) : List UInt8 := cString (link.target.take (bufsiz - 1))

/-- A target with a number is read as it is. -/
theorem cString_take_numbered {before : List UInt8} (hl : before.length ≤ 8) (hn : 0 ∉ before)
    (inode : BitVec 64) :
    cString ((before ++ (decimal inode.toNat ++ [93])).take (bufsiz - 1)) =
      before ++ (decimal inode.toNat ++ [93]) := by
  have hdigits : (decimal inode.toNat).length ≤ 20 := length_decimal_le (by decide) (by omega)
  have hlength : (before ++ (decimal inode.toNat ++ [93])).length ≤ bufsiz - 1 := by
    rw [List.length_append, List.length_append, List.length_singleton, bufsiz]
    omega
  rw [List.take_of_length_le hlength]
  refine cString_eq_self ?_
  rw [List.mem_append, List.mem_append, not_or, not_or]
  exact ⟨hn, notMem_decimal (by decide) _, by decide⟩

/-- The entry of a link is right if the link is not one of a socket or the lines resolve its
inode. -/
theorem linkRight_openFilesEntry (link : Link) :
    LinkRight inetNtop tables link (openFilesEntry inetNtop tables.files dName link.tgt) ↔
      ∀ inode, link = .socket inode → Resolves inetNtop tables inode := by
  cases link with
  | socket inode =>
    have htgt : (Link.socket inode).tgt = socketPrefix ++ (decimal inode.toNat ++ [93]) :=
      cString_take_numbered (by decide) (by decide) inode
    have hprefix : socketPrefix.isPrefixOf (socketPrefix ++ (decimal inode.toNat ++ [93])) = true :=
      List.isPrefixOf_iff_prefix.mpr (List.prefix_append ..)
    have hread := strtol_signedDecimal (.inr rfl) spaces_nil (inode.toNat : Int)
      (.cons 93 (by decide) [])
    rw [List.nil_append, signedDecimal_natCast] at hread
    have hdrop : (socketPrefix ++ (decimal inode.toNat ++ [93])).drop 8 =
        decimal inode.toNat ++ [93] := List.drop_left' rfl
    rw [LinkRight, openFilesEntry, htgt, if_pos hprefix, hdrop, hread]
    refine (socketRight_getAll inetNtop tables inode rfl rfl).trans ?_
    constructor
    · intro h other he
      exact Link.socket.inj he ▸ h
    · exact fun h ↦ h inode rfl
  | pipe inode =>
    have htgt : (Link.pipe inode).tgt = pipePrefix ++ (decimal inode.toNat ++ [93]) :=
      cString_take_numbered (by decide) (by decide) inode
    have hpipe : pipePrefix.isPrefixOf (pipePrefix ++ (decimal inode.toNat ++ [93])) = true :=
      List.isPrefixOf_iff_prefix.mpr (List.prefix_append ..)
    have hsocket : ¬socketPrefix.isPrefixOf (pipePrefix ++ (decimal inode.toNat ++ [93])) = true :=
      Bool.false_ne_true
    rw [LinkRight, openFilesEntry, htgt, if_neg hsocket, if_pos hpipe]
    exact iff_of_true rfl fun _ h ↦ absurd h Link.noConfusion
  | file path =>
    obtain ⟨hn, hsocket, hpipe⟩ := path.2
    have htake : path.1.take (bufsiz - 1) <+: path.1 := List.take_prefix ..
    have htgt : (Link.file path).tgt = path.1.take (bufsiz - 1) :=
      cString_eq_self fun h ↦ hn (List.mem_of_mem_take h)
    have hnot : ∀ before : List UInt8, ¬before <+: path.1 →
        ¬before.isPrefixOf (path.1.take (bufsiz - 1)) = true := fun before hb h ↦
      hb ((List.isPrefixOf_iff_prefix.mp h).trans htake)
    rw [LinkRight, openFilesEntry, htgt, if_neg (hnot _ hsocket), if_neg (hnot _ hpipe),
      List.take_take]
    exact iff_of_true ⟨rfl, rfl⟩ fun _ h ↦ absurd h Link.noConfusion

end

theorem head_decimal_ne (number : Nat) : (decimal number).head? ≠ some 46 := by
  intro h
  exact notMem_decimal (by decide) number (List.mem_of_mem_head? h)

/-- The entries of a directory: one for each link that can be read. -/
theorem filterMap_entry (inetNtop : InetNtop) (files : SocketFiles) (dir : List FdName) :
    ((dir.map FdName.entry).filterMap fun (dName, link) ↦
      if dName.head? = some 46 then none
      else (safeReadlink link).map fun tgt ↦ openFilesEntry inetNtop files dName tgt) =
    (dir.filterMap FdName.readable).map fun (fd, link) ↦
      openFilesEntry inetNtop files (decimal fd) link.tgt := by
  rw [List.filterMap_map, List.map_filterMap]
  refine List.filterMap_congr fun name _ ↦ ?_
  cases name with
  | dots more => rfl
  | fd number link => cases link <;> exact if_neg (head_decimal_ne _)

theorem lt_of_mem_readable {dir : List FdName} {item : Nat × Link}
    (h : item ∈ dir.filterMap FdName.readable) : item.1 < 2 ^ 31 := by
  obtain ⟨name, -, he⟩ := List.mem_filterMap.mp h
  cases name with
  | dots more => exact absurd he.symm (Option.some_ne_none item)
  | fd number link =>
    obtain ⟨target, -, rfl⟩ := Option.map_eq_some_iff.mp he
    exact number.2

theorem forall₂_linkRight_iff (inetNtop : InetNtop) (tables : SocketTables) (dir : List FdName) :
    List.Forall₂
      (fun (item : Nat × Link) (entry : OpenFilesEntry) ↦
        entry.fd = item.1 ∧ LinkRight inetNtop tables item.2 entry)
      (dir.filterMap FdName.readable) ((dir.filterMap FdName.readable).map fun (fd, link) ↦
        openFilesEntry inetNtop tables.files (decimal fd) link.tgt) ↔
      ∀ item ∈ dir.filterMap FdName.readable,
        ∀ inode, item.2 = .socket inode → Resolves inetNtop tables inode := by
  rw [List.forall₂_map_right_iff, List.forall₂_same]
  refine forall₂_congr fun item hmem ↦ ?_
  rw [and_iff_right (fd_openFilesEntry inetNtop tables.files _ (lt_of_mem_readable hmem))]
  exact linkRight_openFilesEntry inetNtop tables _ item.2

/-- Where the entries are right, the lines of the tables resolve the inode of each socket. -/
theorem resolves_of_openFilesRight {inetNtop : InetNtop} {tables : SocketTables}
    {dir : List FdName} (h : OpenFilesRight inetNtop tables dir) {fd : Nat} {inode : BitVec 64}
    (hmem : (fd, Link.socket inode) ∈ dir.filterMap FdName.readable) :
    Resolves inetNtop tables inode := by
  obtain ⟨buf, entries, hget, -, hright⟩ := h
  have hsome := Option.some.inj (congrArg Prod.snd hget)
  rw [← hsome, filterMap_entry] at hright
  exact (forall₂_linkRight_iff ..).mp hright _ hmem inode rfl

/-- An address in the dotted notation, its first byte being the lowest. -/
def dottedQuad (addr : BitVec 32) : List UInt8 :=
  decimal (addr.toNat % 256) ++ 46 :: (decimal (addr.toNat / 256 % 256) ++ 46 ::
    (decimal (addr.toNat / 65536 % 256) ++ 46 :: decimal (addr.toNat / 16777216 % 256)))

/-- `inet_ntop`, for `AF_INET6` only on the address of no host. -/
def dottedNtop : InetNtop where
  inet addr := ⟨dottedQuad addr, by
    have hlength : ∀ value, (decimal (value % 256)).length ≤ 3 := fun value ↦
      length_decimal_le (by decide) (by omega)
    have h0 := hlength addr.toNat
    have h1 := hlength (addr.toNat / 256)
    have h2 := hlength (addr.toNat / 65536)
    have h3 := hlength (addr.toNat / 16777216)
    constructor
    · simp only [dottedQuad, List.length_append, List.length_cons]
      omega
    · simp only [dottedQuad, List.mem_append, List.mem_cons, not_or]
      have hn := notMem_decimal (b := 0) (by decide)
      exact ⟨hn _, by decide, hn _, by decide, hn _, by decide, hn _⟩⟩
  inet6 _ := ⟨asciiBytes "::".toList, by decide⟩

/-- A connection with ten retransmits. -/
def retransmitting : InetRow (BitVec 32) where
  sl := 0
  localAddress := ⟨asciiBytes "0100007F".toList, by decide⟩
  localPort := ⟨asciiBytes "0050".toList, by decide⟩
  remAddress := 0x0100007F
  remPort := 80
  st := ⟨asciiBytes "01".toList, by decide⟩
  txQueue := ⟨asciiBytes "00000001".toList, by decide⟩
  rxQueue := ⟨asciiBytes "00000000".toList, by decide⟩
  tr := ⟨asciiBytes "01".toList, by decide⟩
  tmWhen := ⟨asciiBytes "00000019".toList, by decide⟩
  retrnsmt := 10
  uid := 0
  timeout := 0
  inode := 42
  more := ⟨[], by decide⟩

end LibGTop.Linux

import Pertisk.Replication.Kept
import Pertisk.Storage.Copies
import Pertisk.Storage.Holders
import Pertisk.Storage.Stale
import Pertisk.Witness
import Pertisk.Ha.Once
import Pertisk.Vmm.Stop
import Pertisk.Vmm.Processes
import Pertisk.Migrate.Progress
import Pertisk.Volume.Apart
import Pertisk.Volume.Backing
import Pertisk.Volume.Restorable
import Pertisk.Volume.Offline
import Pertisk.Service.Announced
import Pertisk.Leader
import Pertisk.Backup.Alone
import Pertisk.Tasks.Memory
import Pertisk.Tasks.Off
import Pertisk.Tasks.Restored
import Pertisk.Migrate.Orphans
import Pertisk.Volume.Whole
import Pertisk.Join
import Pertisk.Store.File
import Pertisk.Volume.Gone
import Pertisk.Volume.Own
import Pertisk.Net.Distinct
import Pertisk.Service.Exclusive
import Pertisk.Service.Due
import Pertisk.Record.Kept
import Pertisk.Boot.Mirror
import Pertisk.Store.Concurrent
import Pertisk.Members.Formed
import Pertisk.Store.Writes
import Pertisk.Disks.Notes
import Pertisk.Disks.Sizes
import Pertisk.Disks.Isolated
import Pertisk.Disks.Rollback
import Pertisk.Disks.Names
import Pertisk.Disks.Turns
import Pertisk.Placement.Family
import Pertisk.Placement.Spread
import Pertisk.Ha.Capacity
import Pertisk.Replication.Receive
import Pertisk.Lib.Text
import Pertisk.Boot.Launch
import Pertisk.Boot.Recognised
import Pertisk.Control.Sessions
import Pertisk.Net.Consistent
import Pertisk.Net.Requested
import Pertisk.Http.Viewers
import Pertisk.Storage.Replica
import Pertisk.Storage.Sparse
import Pertisk.Console.Hub
import Pertisk.Iso.Reader
import Pertisk.Iso.Safe
import Pertisk.Iso.Writer
import Pertisk.Iso.Paths
import Pertisk.Iso.Records
import Pertisk.Iso.RoundTrip
import Pertisk.Vmm.Replies
import Pertisk.Vmm.Exchange
import Pertisk.Boot.Cpus
import Pertisk.Sizes.Parse
import Pertisk.Sizes.Provider
import Pertisk.Members.Healed
import Pertisk.Seed.Hostname
import Pertisk.Vmm.Resync
import Pertisk.Vmm.Agent
import Pertisk.Lib.Ranked
import Pertisk.Boot.Newest
import Pertisk.Service.Retained
import Pertisk.Lib.Bytes
import Pertisk.Updates.Log
import Pertisk.Text
import Pertisk.Updates.Inst
import Pertisk.Updates.Lists
import Pertisk.Updates.Sources
import Pertisk.Seed.Hosts
import Pertisk.Lib.Options
import Pertisk.Boot.Options
import Pertisk.SerialLog.Addrs
import Pertisk.SerialLog.Scan
import Pertisk.SerialLog.Macs
import Pertisk.SerialLog.Found
import Pertisk.SerialLog.Belongs
import Pertisk.Net.Macs
import Pertisk.Net.Taps
import Pertisk.Terraform.Lookups
import Pertisk.Terraform.Delete
import Pertisk.Installer.Agreed
import Pertisk.Lib.Rows
import Pertisk.Seed.Accounts
import Pertisk.Seed.Logins
import Pertisk.Seed.Provisioned
import Pertisk.Seed.Access
import Pertisk.Seed.Relogin
import Pertisk.Seed.LoginRuns
import Pertisk.Console.Turns
import Pertisk.Console.Viewers
import Pertisk.Installer.Progress
import Pertisk.Installer.Reports

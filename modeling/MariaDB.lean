import MariaDB.Trx.View
import MariaDB.Strings.RoundTrip
import MariaDB.Rpl.Ownership
import MariaDB.Rpl.MasterGtidWait
import MariaDB.Mdl.Compatible
import MariaDB.Mdl.BackupLock
import MariaDB.Mdl.FindDeadlock
import MariaDB.Redo.PageChange
import MariaDB.Redo.RecordLength
import MariaDB.Page.DeleteRecovery
import MariaDB.Binlog.OobReader
import MariaDB.Binlog.OobRefs
import MariaDB.Binlog.PendingLsn
import MariaDB.Binlog.Checkpoint
import MariaDB.Time.Week
import MariaDB.Time.ZoneInverse
import MariaDB.Binlog.GtidPosition
import MariaDB.Partition.Placement
import MariaDB.Heap.CachedPath
import MariaDB.Mysys.Queue
import MariaDB.Window.Sorts
import MariaDB.RecLock.GapLocks
import MariaDB.RecLock.LockRuns
import MariaDB.Binlog.UsedSize
import MariaDB.Binlog.ComprWords
import MariaDB.Range.EqGroups
import MariaDB.Rpl.BinlogDomains
import MariaDB.Partition.LinearHash
import MariaDB.RecLock.Victim
import MariaDB.Window.CachedItem
import MariaDB.Strings.Like
import MariaDB.Window.Removal
